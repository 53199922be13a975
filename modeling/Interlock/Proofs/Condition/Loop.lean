import Mathlib.Data.Nat.Count
import Interlock.Proofs.Condition.Return
import Interlock.Proofs.Once.Passage

/-!
# Waiting for a condition in a loop

A loop evaluates its condition, waits, and evaluates it again. Only an evaluation decides how it
ends; what ends a wait inside the loop decides nothing.

  * `WaitWhilePhase.Leads`: the phases that the steps of a loop lead to;
  * `Run.InLoop`: a loop from its beginning on, and `Run.LoopStep`: what a move does to it;
  * `Run.InLoop.left`, `Run.InLoop.opened`, `Run.InLoop.lent`: what has brought a loop to its
    phase;
  * `Run.InLoop.counted`: evaluations and waits alternate, and `Run.InLoop.holds`: each evaluation
    is one with the mutex;
  * `Run.AwaitsCondition`, `Run.condition_awaited`: what a caller can rely on.

Evaluating, measuring the time and waiting are steps of their own, with any number of moves of
others in between, and an evaluation is client's code besides. What a loop has done is therefore
told by its past and not by its phase, and the lemmas about one evaluation say when it was and what
came next.
-/

namespace Interlock

/-! ## The clock

The limit of a loop is counted from its first step, so what is left of it is a difference of two
readings of the clock; that the second is the later one is all that is needed to know. -/

/-- The clock does not go back. -/
theorem Machine.clock_apply (m : Machine) (move : Move) :
    m.store.clock.nanos ≤ (m.apply move).store.clock.nanos := by
  cases move with
  | advance t choice =>
    exact advance_keeps (P := fun s => m.store.clock.nanos ≤ s.clock.nanos) choice (Int.le_refl _)
      fun call _ => Progress.Keeps.imp call.step_frame fun _ hframe =>
        Int.le_of_eq (congrArg Instant.nanos hframe.clock.symm)
  | endBody t e => rw [apply, endBody_store]
  | create c => exact Int.le_of_eq (congrArg Instant.nanos (m.store.same_of_apply c).1.symm)
  | tick n => exact Instant.le_advance _ n
  | _ => exact Int.le_refl _

/-- The clock of a later moment shows no less. -/
theorem Run.clock_mono (r : Run) {n k : Nat} (h : n ≤ k) :
    (r.state n).store.clock.nanos ≤ (r.state k).store.clock.nanos := by
  induction h with
  | refl => exact Int.le_refl _
  | step _ ih => exact Int.le_trans ih (Machine.clock_apply _ _)

/-- What is left of a limit at a moment, or that nothing is. -/
theorem Duration.left_cases (limit : Duration) {start now : Instant}
    (hle : start.nanos ≤ now.nanos) :
    (limit.sub? (now.since start) = none ∧ limit.nanos + start.nanos < now.nanos) ∨
      ∃ rest, limit.sub? (now.since start) = some rest ∧
        rest.nanos + now.nanos = limit.nanos + start.nanos := by
  by_cases h : (now.since start).nanos ≤ limit.nanos
  · refine .inr ⟨_, if_pos h, ?_⟩
    simp only [Instant.since] at h ⊢
    omega
  · refine .inl ⟨if_neg h, ?_⟩
    simp only [Instant.since] at h
    omega

/-! ## Phases that follow each other

A loop has few phases: it tests, measures the time that is left, and waits. `Leads` is the graph of
its steps, and the small functions after it (`start?`, `holds?`, `surplus`) are what the invariants
below read off a phase. -/

/-- The phases that the steps of a loop lead to. -/
inductive WaitWhilePhase.Leads (t : Tid) (c : CondRef) (l : LockRef) (timeout : Option Duration)
    (s s' : Store) : WaitWhilePhase → WaitWhilePhase → Prop
  | opens : Leads t c l timeout s s' begin (test s.clock)
  | untimed {start : Instant} (htimeout : timeout = none) :
    Leads t c l timeout s s' (measure start) (waiting start none .entry)
  | timed {start : Instant} {limit rest : Duration} (htimeout : timeout = some limit)
    (hrest : limit.sub? (s.clock.since start) = some rest) :
    Leads t c l timeout s s' (measure start) (waiting start (some rest) .entry)
  | wait {start : Instant} {rest : Option Duration} {p p' : WaitPhase}
    (hstep : p.step t c l rest s = .next s' p') :
    Leads t c l timeout s s' (waiting start rest p) (waiting start rest p')
  /-- However a wait ends, the condition is evaluated again. -/
  | again {start : Instant} {rest : Option Duration} {p : WaitPhase} {woken : Bool}
    (hstep : p.step t c l rest s = .done s' woken) :
    Leads t c l timeout s s' (waiting start rest p) (test start)

section

variable {t : Tid} {c : CondRef} {l : LockRef} {timeout : Option Duration} {s s' : Store}

/-- The steps of a loop follow the graph. -/
theorem WaitWhilePhase.leads_of_next {p p' : WaitWhilePhase}
    (h : p.step t c l timeout s = .next s' p') : p.Leads t c l timeout s s' p' := by
  cases p with
  | begin =>
    cases h
    exact .opens
  | measure start =>
    cases timeout with
    | none =>
      cases h
      exact .untimed rfl
    | some limit =>
      simp only [step] at h
      cases hrest : limit.sub? (s.clock.since start) <;> rw [hrest] at h <;> cases h
      exact .timed rfl hrest
  | waiting start rest p =>
    obtain ⟨q, hq, rfl⟩ | ⟨s'', woken, hdone, heq⟩ := Progress.next_of_within h
    · exact .wait hq
    · cases heq
      exact .again hdone
  | test | met | broken => cases h

theorem WaitWhilePhase.step_left {start : Instant} {limit rest : Duration}
    (h : limit.sub? (s.clock.since start) = some rest) :
    (measure start).step t c l (some limit) s = .next s (waiting start (some rest) .entry) := by
  simp only [step, h]

theorem WaitWhilePhase.step_over {start : Instant} {limit : Duration}
    (h : limit.sub? (s.clock.since start) = none) :
    (measure start).step t c l (some limit) s = .done s false := by
  simp only [step, h]

/-- The clock at the beginning of a loop. -/
def WaitWhilePhase.start? : WaitWhilePhase → Option Instant
  | test start | measure start | waiting start _ _ => some start
  | _ => none

/-- Whether the condition holds, after the evaluation that has just ended. -/
def WaitWhilePhase.holds? : WaitWhilePhase → Option Bool
  | measure _ => some true
  | met => some false
  | _ => none

theorem WaitWhilePhase.resume_returned (start : Instant) (answer : Answer) :
    (test start).resume (.returned answer) = if answer.isYes then measure start else met := by
  cases answer <;> rfl

/-- How many more evaluations than waits a loop has been through. -/
def WaitWhilePhase.surplus : WaitWhilePhase → Nat
  | begin | test _ => 0
  | _ => 1

/-- A loop replies right after an evaluation: the condition does not hold, or the time is up. -/
theorem WaitWhilePhase.of_done {p : WaitWhilePhase} {woken : Bool}
    (h : p.step t c l timeout s = .done s' woken) :
    p.holds? = some (!woken) ∧ (woken = false → timeout ≠ none) := by
  cases p with
  | measure start =>
    cases timeout with
    | none => cases h
    | some limit =>
      simp only [step] at h
      cases hrest : limit.sub? (s.clock.since start) <;> rw [hrest] at h <;> cases h
      exact ⟨rfl, by simp⟩
  | met =>
    cases h
    exact ⟨rfl, by simp⟩
  | waiting start rest p =>
    simp only [step] at h
    cases hp : p.step t c l rest s <;> rw [hp] at h <;> cases h
  | begin | test | broken => cases h

/-- Whether the last thing that a loop has done is to evaluate its condition. -/
def WaitWhilePhase.isEvaluated : WaitWhilePhase → Bool
  | measure _ | met | broken _ => true
  | _ => false

theorem WaitWhilePhase.isEvaluated_of_holds {p : WaitWhilePhase} {holds : Bool}
    (h : p.holds? = some holds) : p.isEvaluated = true := by
  cases p <;> first | rfl | cases h

section

variable {p : WaitWhilePhase} (h : p.isEvaluated = true)

include h

/-! After an evaluation a loop is in code of its own that nothing blocks. -/

/-- It is not the client's. -/
theorem WaitWhilePhase.not_body_of_evaluated : (Call.waitWhile c l timeout p).atBody = false := by
  cases p <;> first | rfl | cases h

/-- It is not that of the mutex. -/
theorem WaitWhilePhase.part_of_evaluated : p.part c = .aside := by
  cases p <;> first | rfl | cases h

/-- There has been one evaluation more than waits. -/
theorem WaitWhilePhase.surplus_of_evaluated : p.surplus = 1 := by
  cases p <;> first | rfl | cases h

/-- Its step can be taken. -/
theorem WaitWhilePhase.step_of_evaluated : p.step t c l timeout s ≠ .blocked := by
  cases p with
  | measure start =>
    simp only [step]
    (repeat' split) <;> simp
  | met | broken => simp [step]
  | _ => cases h

end

end

/-! ## In the middle of a loop

The condition is code of the client's: it may lock other mutexes, wait elsewhere, or run a loop of
its own. So a loop is followed by its depth in the stack, not as the innermost call, and an event of
the loop (an evaluation, a wait) is one at that depth. -/

namespace Run

section

variable (r : Run) (c : CondRef) (l : LockRef) (timeout : Option Duration) (t : Tid) (b : Nat)

/-- The loop that thread `t` begins in move `b` has lasted until move `i` and is in this phase. The
condition may make calls of its own, so the loop need not be the innermost call of its thread. -/
inductive InLoop : Nat → WaitWhilePhase → Prop
  | begins (hmove : r.move b = .begin t (.waitingWhile c l timeout)) : InLoop (b + 1) .begin
  | goes {i : Nat} {p p' : WaitWhilePhase} (h : InLoop i p)
    (hframe : (r.state (i + 1)).frame t (r.depth t b) = some (.waitWhile c l timeout p')) :
    InLoop (i + 1) p'

/-- An evaluation of the condition ends in move `n`. -/
structure Evaluates (n : Nat) (e : BodyEnd) : Prop where
  lasts : ∃ start, r.InLoop c l timeout t b n (.test start)
  move : r.move n = .endBody t e
  depth : r.depth t n = r.depth t b + 1

/-- An evaluation that ends in move `n` returns, and tells whether the condition holds. -/
def EvaluatesTo (n : Nat) (holds : Bool) : Prop :=
  ∃ answer : Answer, r.Evaluates c l timeout t b n (.returned answer) ∧ answer.isYes = holds

/-- A wait of the loop ends by itself in move `n`. -/
def FinishesWait (n : Nat) (woken : Bool) : Prop :=
  ∃ start rest p, r.InLoop c l timeout t b n (.waiting start rest p) ∧
    (∃ choice, r.move n = .advance t choice) ∧
    ∃ s', p.step t c l rest (r.state n).store = .done s' woken

/-- The loop ends in move `i`. -/
structure EndsLoop (i : Nat) (notice : Notice) : Prop where
  lasts : ∃ p, r.InLoop c l timeout t b i p
  depth : r.depth t i = r.depth t b + 1
  step : ∃ choice, r.move i = .advance t choice ∧ ((r.state i).advance t choice).2 = notice

/-- The evaluation that runs before move `i` has released the mutex of the loop itself. -/
def GivesUp (i : Nat) : Prop :=
  ∃ n start, n < i ∧ r.Releases l t n ∧
    ∀ k, n ≤ k → k ≤ i → r.InLoop c l timeout t b k (.test start)

open Classical in
/-- The number of evaluations before move `i`. -/
noncomputable def evaluations (i : Nat) : Nat :=
  Nat.count (fun n => ∃ e, r.Evaluates c l timeout t b n e) i

open Classical in
/-- The number of waits that have ended by themselves before move `i`. -/
noncomputable def finishedWaits (i : Nat) : Nat :=
  Nat.count (fun n => ∃ woken, r.FinishesWait c l timeout t b n woken) i

/-- What move `i` does to a loop that lasts. -/
inductive LoopStep (i : Nat) : WaitWhilePhase → WaitWhilePhase → Prop
  | kept {p : WaitWhilePhase} (hidle : (∃ start, p = .test start) ∨ r.Idle t i)
    (htest : ∀ e, ¬ r.Evaluates c l timeout t b i e)
    (hwait : ∀ woken, ¬ r.FinishesWait c l timeout t b i woken) : LoopStep i p p
  | evaluated {start : Instant} {e : BodyEnd} (h : r.Evaluates c l timeout t b i e) :
    LoopStep i (.test start) ((WaitWhilePhase.test start).resume e)
  | goes {choice : Choice} {p p' : WaitWhilePhase} (hmove : r.move i = .advance t choice)
    (hget : ∃ outer, (r.state i).calls.get t = .waitWhile c l timeout p :: outer)
    (hleads : p.Leads t c l timeout (r.state i).store (r.state (i + 1)).store p') :
    LoopStep i p p'

end

variable {r : Run} {c : CondRef} {l : LockRef} {timeout : Option Duration} {t : Tid}
  {b i j n : Nat} {p p' q : WaitWhilePhase} {start : Instant} {e : BodyEnd} {choice : Choice}

namespace InLoop

/-- The loop is at its depth. -/
theorem frame (h : r.InLoop c l timeout t b i p) :
    (r.state i).frame t (r.depth t b) = some (.waitWhile c l timeout p) := by
  cases h with
  | begins hmove =>
    have hcalls : (r.state (b + 1)).calls.get t =
        .waitingWhile c l timeout :: (r.state b).calls.get t := by
      rw [state_succ, hmove]
      exact Table.get_set_self ..
    exact Machine.frame_head hcalls
  | goes _ hframe => exact hframe

theorem unique (h : r.InLoop c l timeout t b i p) (h' : r.InLoop c l timeout t b i q) : p = q := by
  cases h.frame.symm.trans h'.frame
  rfl

theorem lt (h : r.InLoop c l timeout t b i p) : b < i := by
  induction h with
  | begins => exact Nat.lt_succ_self b
  | goes _ _ ih => exact Nat.lt_succ_of_lt ih

/-- Unless it evaluates its condition, a loop is the innermost call. -/
theorem get (h : r.InLoop c l timeout t b i p)
    (hbody : (Call.waitWhile c l timeout p).atBody = false) :
    ∃ outer, (r.state i).calls.get t = .waitWhile c l timeout p :: outer ∧
      r.depth t b = outer.length :=
  Machine.get_of_frame (r.state_sound i) h.frame hbody

/-- A loop that has no call above it is the innermost call. -/
theorem get_of_depth (h : r.InLoop c l timeout t b i p) (hdepth : r.depth t i = r.depth t b + 1) :
    ∃ outer, (r.state i).calls.get t = .waitWhile c l timeout p :: outer ∧
      r.depth t b = outer.length := by
  cases hget : (r.state i).calls.get t with
  | nil => simp [depth, hget] at hdepth
  | cons call outer =>
    have houter : outer.length = r.depth t b := by simpa [depth, hget] using hdepth
    have hframe := h.frame
    rw [← houter, Machine.frame_head hget] at hframe
    cases hframe
    exact ⟨outer, rfl, houter.symm⟩

theorem lock_stays (h : r.InLoop c l timeout t b i p)
    (hinit : (r.state i).store.lock l ≠ none) : (r.state (i + 1)).store.lock l ≠ none :=
  lock_stays_of_mem (Machine.mem_of_frame h.frame) (by simp [Call.objects]) hinit

end InLoop

/-- The loop goes on when an evaluation ends. -/
theorem Evaluates.resumed (h : r.Evaluates c l timeout t b n e) :
    ∃ start, r.InLoop c l timeout t b n (.test start) ∧
      r.InLoop c l timeout t b (n + 1) ((WaitWhilePhase.test start).resume e) := by
  obtain ⟨⟨start, hloop⟩, hmove, hdepth⟩ := h
  obtain ⟨outer, hget, houter⟩ := hloop.get_of_depth hdepth
  refine ⟨start, hloop, hloop.goes ?_⟩
  have hcalls : (r.state (n + 1)).calls.get t =
      .waitWhile c l timeout ((WaitWhilePhase.test start).resume e) :: outer := by
    rw [state_succ, hmove, Machine.apply, Machine.endBody_of_get hget]
    exact Table.get_set_self ..
  rw [houter]
  exact Machine.frame_head hcalls

/-- A thread that does not move finishes no wait. -/
theorem Idle.not_finishes (h : r.Idle t i) (woken : Bool) :
    ¬ r.FinishesWait c l timeout t b i woken := by
  rintro ⟨start, rest, p, hloop, ⟨choice, hmove⟩, s', hstep⟩
  obtain ⟨outer, hget, -⟩ := hloop.get rfl
  have hblocked := h choice hmove
  rw [Machine.advance_blocked hget, (Call.Waiter.loop timeout start).step t choice _ p,
    hstep] at hblocked
  cases hblocked

/-- A loop goes on as its phases do. -/
theorem InLoop.loopStep (h : r.InLoop c l timeout t b i p)
    (h' : r.InLoop c l timeout t b (i + 1) p') : r.LoopStep c l timeout t b i p p' := by
  have hcontinued := (r.stacked i t).continued (r.state_sound i) h.frame h'.frame
  generalize hcall : Call.waitWhile c l timeout p' = call' at hcontinued
  cases hcontinued with
  | kept hidle =>
    cases hcall
    have htest : (∃ start, p = .test start) ∨ r.Idle t i := by
      refine hidle.imp_left fun hbody => ?_
      cases p <;> first | exact ⟨_, rfl⟩ | cases hbody
    -- a loop that is where it was has neither ended an evaluation nor finished a wait
    refine .kept htest (fun e hends => ?_) fun woken hfinishes => ?_
    · obtain ⟨start, htest, hresumed⟩ := hends.resumed
      obtain rfl := h.unique htest
      have hsame := h'.unique hresumed
      rcases e with ⟨_ | _⟩ | _ <;> cases hsame
    · rcases htest with ⟨start, rfl⟩ | hidle
      · obtain ⟨start', rest, q, hwait, -⟩ := hfinishes
        cases h.unique hwait
      · exact hidle.not_finishes woken hfinishes
  | @resumed e outer hmove hget houter hbody hstore =>
    cases hcall
    have hdepth : r.depth t i = r.depth t b + 1 := by rw [houter, depth, hget, List.length_cons]
    obtain ⟨start, rfl⟩ : ∃ start, p = .test start := by
      cases p <;> first | exact ⟨_, rfl⟩ | cases hbody
    exact .evaluated ⟨⟨start, h⟩, hmove, hdepth⟩
  | @next choice call' outer hmove hget _ hstep =>
    subst hcall
    refine .goes hmove ⟨outer, hget⟩ ?_
    rw [Call.step] at hstep
    obtain ⟨q, hq, heq⟩ := Progress.next_of_lift hstep
    cases heq
    exact WaitWhilePhase.leads_of_next hq

/-! ## What has brought a loop to its phase

Three questions about the past, each answered by an induction over the moves of the loop: which
evaluation has left it here, when it looked at the clock first, and where its wait began. -/

/-- A step that could be taken has not been taken. -/
theorem InLoop.quiet (h : r.InLoop c l timeout t b i p)
    (hbody : (Call.waitWhile c l timeout p).atBody = false)
    (hstep : p.step t c l timeout (r.state i).store ≠ .blocked) (hidle : r.Idle t i)
    (choice : Choice) : r.move i ≠ .advance t choice := by
  intro hmove
  obtain ⟨outer, hget, -⟩ := h.get hbody
  have hblocked := (Machine.advance_blocked hget).1 (hidle choice hmove)
  rw [Call.step, Call.lift] at hblocked
  cases hp : p.step t c l timeout (r.state i).store <;> rw [hp] at hblocked <;>
    first | exact hstep hp | cases hblocked

/-- What an evaluation has left is there because of an evaluation since whose end the thread has not
moved. -/
theorem InLoop.left (h : r.InLoop c l timeout t b i p) (hp : p.isEvaluated = true) :
    ∃ n < i, ∃ start e, r.Evaluates c l timeout t b n e ∧ p = (WaitWhilePhase.test start).resume e ∧
      ∀ k, n < k → k < i → ∀ choice, r.move k ≠ .advance t choice := by
  induction h with
  | begins => cases hp
  | @goes i p p' h hframe ih =>
    cases h.loopStep (h.goes hframe) with
    | kept hidle =>
      obtain ⟨n, hn, start, e, hends, heq, hquiet⟩ := ih hp
      refine ⟨n, Nat.lt_succ_of_lt hn, start, e, hends, heq, fun k hnk hki => ?_⟩
      rcases Nat.lt_or_eq_of_le (Nat.le_of_lt_succ hki) with hki | rfl
      · exact hquiet k hnk hki
      · refine h.quiet (WaitWhilePhase.not_body_of_evaluated hp)
          (WaitWhilePhase.step_of_evaluated hp) (hidle.resolve_left ?_)
        rintro ⟨start, rfl⟩
        cases hp
    | @evaluated start e hends =>
      exact ⟨i, Nat.lt_succ_self i, start, e, hends, rfl,
        fun k hik hki => absurd hik (Nat.not_lt.2 (Nat.le_of_lt_succ hki))⟩
    | goes _ _ hleads => cases hleads <;> cases hp

/-- What is known of the condition is what that evaluation has returned. -/
theorem InLoop.evaluated (h : r.InLoop c l timeout t b i p) {holds : Bool}
    (hp : p.holds? = some holds) :
    ∃ n < i, r.EvaluatesTo c l timeout t b n holds ∧
      ∀ k, n < k → k < i → ∀ choice, r.move k ≠ .advance t choice := by
  obtain ⟨n, hn, start, e, hends, rfl, hquiet⟩ := h.left (WaitWhilePhase.isEvaluated_of_holds hp)
  refine ⟨n, hn, ?_, hquiet⟩
  cases e with
  | returned answer =>
    refine ⟨answer, hends, ?_⟩
    cases answer <;> cases hp <;> rfl
  | panicked why => cases hp

/-- The thread has not moved since it began the loop. -/
theorem InLoop.quiet_of_begin (h : r.InLoop c l timeout t b i .begin) :
    ∀ k, b < k → k < i → ∀ choice, r.move k ≠ .advance t choice := by
  generalize hp : WaitWhilePhase.begin = p at h
  induction h with
  | begins =>
    intro k hbk hki
    omega
  | @goes i p p' h hframe ih =>
    cases h.loopStep (h.goes hframe) with
    | kept hidle =>
      subst hp
      intro k hbk hki
      rcases Nat.lt_or_eq_of_le (Nat.le_of_lt_succ hki) with hki | rfl
      · exact ih rfl k hbk hki
      · exact h.quiet rfl (by simp [WaitWhilePhase.step]) (hidle.resolve_left (by simp))
    | @evaluated _ e => rcases e with ⟨_ | _⟩ | _ <;> cases hp
    | goes _ _ hleads => cases hleads <;> cases hp

/-- A loop counts its time from its thread's first step in it. -/
theorem InLoop.opened (h : r.InLoop c l timeout t b i p) (hp : p.start? = some start) :
    ∃ j < i, r.NextStep t (b + 1) j .body ∧ (r.state j).store.clock = start := by
  induction h with
  | begins => cases hp
  | @goes i p p' h hframe ih =>
    have hlater (hp : p.start? = some start) :
        ∃ j < i + 1, r.NextStep t (b + 1) j .body ∧ (r.state j).store.clock = start := by
      obtain ⟨j, hj, hopened⟩ := ih hp
      exact ⟨j, Nat.lt_succ_of_lt hj, hopened⟩
    cases h.loopStep (h.goes hframe) with
    | kept => exact hlater hp
    | @evaluated _ e => rcases e with ⟨_ | _⟩ | _ <;> first | exact hlater hp | cases hp
    | @goes choice _ _ hmove hget hleads =>
      cases hleads with
      | opens =>
        obtain ⟨outer, hget⟩ := hget
        refine ⟨i, Nat.lt_succ_self i, ⟨h.lt, ⟨choice, hmove, ?_⟩, h.quiet_of_begin⟩,
          Option.some.inj hp⟩
        exact (loop_begins (Machine.call?_of_get hget) choice).1
      | _ => exact hlater hp

/-- A wait of a loop begins where the loop has measured the time, and lasts as any wait does. -/
theorem InLoop.lent {rest : Option Duration} {q : WaitPhase}
    (h : r.InLoop c l timeout t b i (.waiting start rest q)) :
    ∃ m < i, r.InLoop c l timeout t b m (.measure start) ∧
      (∃ choice, r.move m = .advance t choice) ∧
      (WaitWhilePhase.measure start).step t c l timeout (r.state m).store =
        .next (r.state m).store (.waiting start rest .entry) ∧
      r.InWait (fun q => .waitWhile c l timeout (.waiting start rest q)) t (m + 1) i q := by
  generalize hp : WaitWhilePhase.waiting start rest q = p at h
  -- by induction on the loop: a wait that goes on was lent before, one at its beginning just now
  induction h generalizing q with
  | begins => cases hp
  | @goes i p p' h hframe ih =>
    subst hp
    have h' := h.goes hframe
    obtain ⟨outer, hget, -⟩ := h'.get rfl
    have hcall := Machine.call?_of_get hget
    have hlater {q' : WaitPhase} (hp : WaitWhilePhase.waiting start rest q' = p) :
        ∃ m < i + 1, r.InLoop c l timeout t b m (.measure start) ∧
          (∃ choice, r.move m = .advance t choice) ∧
          (WaitWhilePhase.measure start).step t c l timeout (r.state m).store =
            .next (r.state m).store (.waiting start rest .entry) ∧
          r.InWait (fun q => .waitWhile c l timeout (.waiting start rest q)) t (m + 1) (i + 1)
            q := by
      obtain ⟨m, hm, hmeasure, hmove, hstep, hwait⟩ := ih hp
      exact ⟨m, Nat.lt_succ_of_lt hm, hmeasure, hmove, hstep, hwait.goes hcall⟩
    have hstep := h.loopStep h'
    generalize hp : WaitWhilePhase.waiting start rest q = p' at hstep
    cases hstep with
    | kept => exact hlater hp
    | @evaluated _ e => rcases e with ⟨_ | _⟩ | _ <;> cases hp
    | @goes choice _ _ hmove _ hleads =>
      cases hleads with
      | wait => cases hp; exact hlater rfl
      | untimed htimeout =>
        cases hp
        refine ⟨i, Nat.lt_succ_self i, h, ⟨choice, hmove⟩, ?_, .begins hcall⟩
        rw [htimeout]
        rfl
      | timed htimeout hrest =>
        cases hp
        refine ⟨i, Nat.lt_succ_self i, h, ⟨choice, hmove⟩, ?_, .begins hcall⟩
        rw [htimeout]
        exact WaitWhilePhase.step_left hrest
      | opens | again => cases hp

/-- A loop that lasts has lasted at every moment since its beginning. -/
theorem InLoop.before (h : r.InLoop c l timeout t b i p) {k : Nat} (hbk : b < k) (hki : k ≤ i) :
    ∃ p', r.InLoop c l timeout t b k p' := by
  induction h with
  | begins hmove =>
    obtain rfl : k = b + 1 := Nat.le_antisymm hki hbk
    exact ⟨_, .begins hmove⟩
  | goes h hframe ih =>
    rcases Nat.lt_or_eq_of_le hki with hki | rfl
    · exact ih (Nat.le_of_lt_succ hki)
    · exact ⟨_, h.goes hframe⟩

/-! ## Evaluations and waits

The two are counted along the run, and their difference is read off the phase. -/

open Classical in
/-- Evaluations and waits alternate. -/
theorem InLoop.counted (h : r.InLoop c l timeout t b i p) :
    r.evaluations c l timeout t b i = r.finishedWaits c l timeout t b i + p.surplus := by
  -- both counts are 0 when the loop begins, and each step moves one of them with the phase
  induction h with
  | begins =>
    have hbefore {p : WaitWhilePhase} {n : Nat} (hn : n < b + 1) :
        ¬ r.InLoop c l timeout t b n p := fun h => absurd h.lt (by omega)
    have hevaluations : r.evaluations c l timeout t b (b + 1) = 0 := by
      refine Nat.count_of_forall_not fun {n} hn => ?_
      rintro ⟨e, ⟨start, hloop⟩, -⟩
      exact hbefore hn hloop
    have hwaits : r.finishedWaits c l timeout t b (b + 1) = 0 := by
      refine Nat.count_of_forall_not fun n hn => ?_
      rintro ⟨woken, start, rest, q, hloop, -⟩
      exact hbefore hn hloop
    rw [hevaluations, hwaits]
    rfl
  | @goes i p p' h hframe ih =>
    have hnone (hp : ∀ start rest q, p ≠ .waiting start rest q) :
        ¬ ∃ woken, r.FinishesWait c l timeout t b i woken := by
      rintro ⟨woken, start, rest, q, hloop, -⟩
      exact hp start rest q (h.unique hloop)
    rw [evaluations, finishedWaits, Nat.count_succ, Nat.count_succ, ← evaluations,
      ← finishedWaits, ih]
    cases h.loopStep (h.goes hframe) with
    | kept _ htest hwait =>
      rw [if_neg (not_exists.2 htest), if_neg (not_exists.2 hwait)]
      rfl
    | @evaluated _ e hends =>
      rw [if_pos ⟨e, hends⟩, if_neg (hnone (by simp))]
      rcases e with ⟨_ | _⟩ | _ <;> rfl
    | @goes choice _ _ hmove _ hleads =>
      have htest : ¬ ∃ e, r.Evaluates c l timeout t b i e := by
        rintro ⟨e, -, hends, -⟩
        cases hmove.symm.trans hends
      rw [if_neg htest]
      cases hleads with
      | again hstep =>
        rw [if_pos ⟨_, _, _, _, h, ⟨choice, hmove⟩, _, hstep⟩]
        rfl
      | wait hstep =>
        rw [if_neg]
        · rfl
        · rintro ⟨woken, start, rest, q, hloop, -, s', hdone⟩
          cases h.unique hloop
          cases hstep.symm.trans hdone
      | _ =>
        rw [if_neg (hnone (by simp))]
        rfl

/-! ## The mutex of a loop

The loop itself never touches the mutex; its waits give it back. What remains is the condition,
which may unlock the mutex if it wants to, and then the loop has lost it by no fault of its own. -/

/-- Outside its waits and its condition a loop releases nothing. -/
theorem InLoop.not_releases (h : r.InLoop c l timeout t b i p)
    (hbody : (Call.waitWhile c l timeout p).atBody = false) (hp : p.part c = .aside) :
    ¬ r.Releases l t i := by
  obtain ⟨outer, hget, -⟩ := h.get hbody
  have hpart : (r.state i).part l t = .aside := by
    rw [Machine.part, Machine.see_of_get hget]
    exact (if_pos rfl).trans hp
  rintro ⟨choice, -, -, hdeed⟩
  rw [Machine.deed, hpart] at hdeed
  cases hdeed

/-- Between its beginning and its first step a loop does nothing to the mutex. -/
theorem InLoop.has_of_begin (h : r.InLoop c l timeout t b i .begin) (hhas : r.Has l t b) :
    r.Has l t i := by
  generalize hp : WaitWhilePhase.begin = p at h
  induction h with
  | begins hmove =>
    refine hhas.succ ?_ ?_
    · rw [state_succ, hmove]
      exact hhas.initialized
    · rintro ⟨choice, hadvance, -⟩
      cases hmove.symm.trans hadvance
  | @goes i p p' h hframe ih =>
    cases h.loopStep (h.goes hframe) with
    | kept =>
      subst hp
      exact (ih rfl).succ (h.lock_stays (ih rfl).initialized) (h.not_releases rfl rfl)
    | @evaluated _ e => rcases e with ⟨_ | _⟩ | _ <;> cases hp
    | goes _ _ hleads => cases hleads <;> cases hp

section

variable {a : Nat} {wrap : WaitPhase → Call} {finish : Store → Bool → Progress Call Reply}

/-- A wait without the mutex does not come past its checks. -/
theorem InWait.unchecked {p : WaitPhase} (hw : Call.Waiter c l timeout wrap finish)
    (h : r.InWait wrap t a i p) (hnot : ¬ r.Has l t a) : p.backend? = none ∧ ¬ r.Has l t i := by
  -- the checks come before anything that could take the mutex, and one of them fails
  induction h with
  | begins => exact ⟨rfl, hnot⟩
  | @goes i p p' h hcall ih =>
    obtain ⟨hnone, hnot⟩ := ih
    have hdeed := h.deed hw
    have hkeep : (p.part c timeout).deed l (r.state i).store = .keep := by
      cases p <;> first | rfl | cases hnone
    refine ⟨?_, not_has_succ hnot ?_⟩
    · rcases h.cases_succ hw hcall with ⟨rfl, -⟩ | ⟨choice, -, hstep⟩
      · exact hnone
      · cases p with
        | check me =>
          simp only [WaitPhase.step, Store.withLock] at hstep
          cases hk : (r.state i).store.lock l with
          | none =>
            rw [hk] at hstep
            cases hstep
          | some k =>
            have hcheck : ((r.state i).part l t).check? = some me := by
              rw [Machine.part, Machine.see_of_call? h.call?, hw.part]
              rfl
            have howner : k.owner ≠ me := mt (check_iff hk hcheck).2.2.1 hnot
            simp [hk, howner, Store.violate] at hstep
        | entry =>
          simp only [WaitPhase.step, Store.violate] at hstep
          split at hstep
          · obtain ⟨-, rfl⟩ := Progress.next.inj hstep
            rfl
          · cases hstep
        | identify =>
          simp only [WaitPhase.step, Store.violate] at hstep
          split at hstep
          · cases hstep
          · obtain ⟨-, rfl⟩ := Progress.next.inj hstep
            rfl
        | native q => cases hnone
        | fallback q => cases hnone
    · rintro ⟨choice, -, -, htakes⟩
      cases (hdeed.trans hkeep).symm.trans htakes

/-- A wait that has ended by itself was one with the mutex, and has given it back. -/
theorem InWait.has_of_done {p : WaitPhase} (hw : Call.Waiter c l timeout wrap finish)
    (h : r.InWait wrap t a i p) {s' : Store} {woken : Bool}
    (hstep : p.step t c l timeout (r.state i).store = .done s' woken) : r.Has l t (i + 1) := by
  by_cases hhas : r.Has l t a
  · exact (h.of_done hw hhas hstep).1
  · have hnone := (h.unchecked hw hhas).1
    rcases WaitPhase.isLast_of_done hstep with ⟨me, woken, rfl⟩ | ⟨me, w, rfl⟩ <;> cases hnone

end

/-- The condition is evaluated with the mutex, unless the evaluation itself gives it up. -/
theorem InLoop.holds (h : r.InLoop c l timeout t b i (.test start)) (hhas : r.Has l t b)
    (hkeeps : ¬ r.GivesUp c l timeout t b i) : r.Has l t i := by
  generalize hp : WaitWhilePhase.test start = p at h
  -- the mutex comes with the loop, or back from a wait, and only the evaluation can give it up
  induction h with
  | begins => cases hp
  | @goes i p p' h hframe ih =>
    have h' := h.goes hframe
    cases h.loopStep h' with
    | kept =>
      subst hp
      have hhas : r.Has l t i := by
        refine ih ?_ rfl
        rintro ⟨n, start', hni, hreleases, hlasts⟩
        cases h.unique (hlasts i (Nat.le_of_lt hni) (Nat.le_refl i))
        refine hkeeps ⟨n, start, Nat.lt_succ_of_lt hni, hreleases, fun k hnk hki => ?_⟩
        rcases Nat.lt_or_eq_of_le hki with hki | rfl
        · exact hlasts k hnk (Nat.le_of_lt_succ hki)
        · exact h'
      refine hhas.succ (h.lock_stays hhas.initialized) fun hreleases => hkeeps ?_
      refine ⟨i, start, Nat.lt_succ_self i, hreleases, fun k hik hki => ?_⟩
      rcases Nat.lt_or_eq_of_le hik with hik | rfl
      · obtain rfl : k = i + 1 := Nat.le_antisymm hki hik
        exact h'
      · exact h
    | @evaluated _ e => rcases e with ⟨_ | _⟩ | _ <;> cases hp
    | goes _ _ hleads =>
      cases hleads with
      | opens =>
        have hhas := h.has_of_begin hhas
        exact hhas.succ (h.lock_stays hhas.initialized) (h.not_releases rfl rfl)
      | again hstep =>
        obtain ⟨m, -, -, -, -, hwait⟩ := h.lent
        exact hwait.has_of_done (.loop timeout _) hstep
      | _ => cases hp

/-! ## How a loop ends

By a reply or by a panic of its condition or of a wait. A reply comes from one of two phases, both
of them right after an evaluation. -/

/-- A loop that runs none of its client's code stays as it is until its thread takes a step. -/
theorem InLoop.until {notice : Notice} (h : r.InLoop c l timeout t b i p)
    (hbody : (Call.waitWhile c l timeout p).atBody = false) (hnext : r.NextStep t i n notice) :
    r.InLoop c l timeout t b n p := by
  refine hnext.keeps (P := fun k => r.InLoop c l timeout t b k p) h fun k hmove hk => ?_
  obtain ⟨outer, hget, houter⟩ := hk.get hbody
  have hkept := (r.state_change k).calls_kept (r.state_sound k) hget hbody hmove
  exact hk.goes (by rw [houter]; exact Machine.frame_head hkept)

/-- What the thread learns from a step of the loop tells how the step went. -/
theorem replies_iff {outer : List Call}
    (hget : (r.state i).calls.get t = .waitWhile c l timeout p :: outer) (choice : Choice)
    (woken : Bool) : ((r.state i).advance t choice).2 = .replied (.flag woken) ↔
      ∃ s', p.step t c l timeout (r.state i).store = .done s' woken := by
  have hstep : (Call.waitWhile c l timeout p).step t choice (r.state i).store =
      Call.lift (.waitWhile c l timeout) .flag (p.step t c l timeout (r.state i).store) := rfl
  rw [Machine.advance_notice (Machine.call?_of_get hget), hstep]
  simp [Progress.notice_lift_replied]

/-- The last phase of a loop that replies comes right after an evaluation. -/
theorem EndsLoop.exists_done {woken : Bool}
    (h : r.EndsLoop c l timeout t b i (.replied (.flag woken))) :
    ∃ p s', r.InLoop c l timeout t b i p ∧ p.holds? = some (!woken) ∧
      p.step t c l timeout (r.state i).store = .done s' woken := by
  obtain ⟨⟨p, hloop⟩, hdepth, choice, hmove, hnotice⟩ := h
  obtain ⟨outer, hget, -⟩ := hloop.get_of_depth hdepth
  obtain ⟨s', hstep⟩ := (replies_iff hget choice woken).1 hnotice
  exact ⟨p, s', hloop, (WaitWhilePhase.of_done hstep).1, hstep⟩

/-- A loop whose step is a reply ends with it. -/
theorem InLoop.ends (h : r.InLoop c l timeout t b i p) (hmove : r.move i = .advance t choice)
    {s' : Store} {woken : Bool} (hbody : (Call.waitWhile c l timeout p).atBody = false)
    (hstep : p.step t c l timeout (r.state i).store = .done s' woken) :
    r.EndsLoop c l timeout t b i (.replied (.flag woken)) := by
  obtain ⟨outer, hget, houter⟩ := h.get hbody
  refine ⟨⟨p, h⟩, ?_, choice, hmove, (replies_iff hget choice woken).2 ⟨s', hstep⟩⟩
  rw [houter, depth, hget, List.length_cons]

/-- A loop that begins a wait goes on. -/
theorem InLoop.goes_of_next (h : r.InLoop c l timeout t b i p)
    (hmove : r.move i = .advance t choice) {s' : Store} {p' : WaitWhilePhase}
    (hbody : (Call.waitWhile c l timeout p).atBody = false)
    (hstep : p.step t c l timeout (r.state i).store = .next s' p') :
    r.InLoop c l timeout t b (i + 1) p' := by
  obtain ⟨outer, hget, houter⟩ := h.get hbody
  have hnext : (Call.waitWhile c l timeout p).step t choice (r.state i).store =
      .next s' (.waitWhile c l timeout p') := by
    rw [Call.step, Call.lift, hstep]
    rfl
  have hcalls : (r.state (i + 1)).calls.get t = .waitWhile c l timeout p' :: outer := by
    rw [state_of_advance hmove, Machine.advance_of_next hget hnext rfl]
    exact Table.get_set_self ..
  exact h.goes (by rw [houter]; exact Machine.frame_head hcalls)

/-! ### After an evaluation

The thread's next step after an evaluation that returns finds the loop where the evaluation has left
it. The condition does not hold, and the loop is over; or it holds, and the time alone decides
between the end and another wait. -/

/-- What an evaluation tells lasts until the thread takes a step. -/
theorem EvaluatesTo.until {holds : Bool} {notice : Notice}
    (h : r.EvaluatesTo c l timeout t b n holds) (hnext : r.NextStep t (n + 1) i notice) :
    ∃ start, r.InLoop c l timeout t b i (if holds then .measure start else .met) := by
  obtain ⟨answer, hevaluates, rfl⟩ := h
  obtain ⟨start, -, hresumed⟩ := hevaluates.resumed
  rw [WaitWhilePhase.resume_returned] at hresumed
  refine ⟨start, hresumed.until ?_ hnext⟩
  cases answer <;> rfl

/-- A loop whose condition does not hold is woken. -/
theorem EvaluatesTo.ends {notice : Notice} (h : r.EvaluatesTo c l timeout t b n false)
    (hnext : r.NextStep t (n + 1) i notice) :
    r.EndsLoop c l timeout t b i (.replied (.flag true)) := by
  obtain ⟨start, hloop⟩ := h.until hnext
  obtain ⟨choice, hmove, -⟩ := hnext.step
  exact hloop.ends hmove rfl rfl

/-- An untimed loop whose condition holds waits. -/
theorem EvaluatesTo.waits {notice : Notice} (h : r.EvaluatesTo c l none t b n true)
    (hnext : r.NextStep t (n + 1) i notice) :
    ∃ start, r.InLoop c l none t b (i + 1) (.waiting start none .entry) := by
  obtain ⟨start, hloop⟩ := h.until hnext
  obtain ⟨choice, hmove, -⟩ := hnext.step
  exact ⟨start, hloop.goes_of_next hmove rfl rfl⟩

/-- A timed loop whose condition holds looks at the clock: it ends if more than its limit has passed
since its first step, and waits otherwise. -/
theorem EvaluatesTo.measured {limit : Duration} {first notice : Notice}
    (h : r.EvaluatesTo c l (some limit) t b n true) (hnext : r.NextStep t (n + 1) i notice)
    (hfirst : r.NextStep t (b + 1) j first) :
    let start := (r.state j).store.clock
    let now := (r.state i).store.clock
    start.nanos ≤ now.nanos ∧
      (r.EndsLoop c l (some limit) t b i (.replied (.flag false)) ↔
        limit.nanos + start.nanos < now.nanos) ∧
      (now.nanos ≤ limit.nanos + start.nanos →
        ∃ rest, r.InLoop c l (some limit) t b (i + 1) (.waiting start (some rest) .entry)) := by
  intro start now
  obtain ⟨start', hloop⟩ := h.until hnext
  obtain ⟨choice, hmove, -⟩ := hnext.step
  obtain ⟨j', hj, hopened, rfl⟩ := hloop.opened rfl
  obtain rfl := hfirst.unique hopened
  have hle : start.nanos ≤ now.nanos := r.clock_mono (Nat.le_of_lt hj)
  -- the limit has passed, or some of it is left
  rcases limit.left_cases hle with ⟨hnone, hlt⟩ | ⟨rest, hrest, hleft⟩
  · have hstep := WaitWhilePhase.step_over (t := t) (c := c) (l := l) hnone
    exact ⟨hle, iff_of_true (hloop.ends hmove rfl hstep) hlt,
      fun hge => absurd hlt (Int.not_lt.2 hge)⟩
  · have hstep := WaitWhilePhase.step_left (t := t) (c := c) (l := l) hrest
    refine ⟨hle, iff_of_false (fun hends => ?_) (by omega),
      fun _ => ⟨rest, hloop.goes_of_next hmove rfl hstep⟩⟩
    obtain ⟨p, s', hloop', -, hdone⟩ := hends.exists_done
    cases hloop.unique hloop'
    cases hstep.symm.trans hdone

/-! ### What comes before the end of a loop, and before a wait -/

/-- A loop that is not woken is timed. -/
theorem EndsLoop.woken {woken : Bool}
    (h : r.EndsLoop c l none t b i (.replied (.flag woken))) : woken = true := by
  obtain ⟨p, s', -, -, hstep⟩ := h.exists_done
  cases woken with
  | true => rfl
  | false => exact absurd rfl ((WaitWhilePhase.of_done hstep).2 rfl)

/-- A loop that replies has evaluated its condition once more than it has waited. -/
theorem EndsLoop.counted {woken : Bool}
    (h : r.EndsLoop c l timeout t b i (.replied (.flag woken))) :
    r.evaluations c l timeout t b i = r.finishedWaits c l timeout t b i + 1 := by
  obtain ⟨p, s', hloop, hholds, -⟩ := h.exists_done
  rw [hloop.counted,
    WaitWhilePhase.surplus_of_evaluated (WaitWhilePhase.isEvaluated_of_holds hholds)]

/-- A loop replies right after an evaluation, and nothing is released in between. -/
theorem EndsLoop.evaluated {woken : Bool}
    (h : r.EndsLoop c l timeout t b i (.replied (.flag woken))) :
    ∃ n, r.EvaluatesTo c l timeout t b n (!woken) ∧
      r.NextStep t (n + 1) i (.replied (.flag woken)) ∧
      ∀ k, n ≤ k → k ≤ i → ¬ r.Releases l t k := by
  obtain ⟨p, s', hloop, hholds, -⟩ := h.exists_done
  obtain ⟨n, hni, hevaluates, hquiet⟩ := hloop.evaluated hholds
  refine ⟨n, hevaluates, ⟨hni, h.step, fun k hnk => hquiet k hnk⟩, fun k hnk hki hreleases => ?_⟩
  rcases Nat.lt_or_eq_of_le hki with hki | rfl
  · obtain ⟨choice, hmove, -⟩ := hreleases
    obtain ⟨answer, hends, -⟩ := hevaluates
    rcases Nat.lt_or_eq_of_le hnk with hnk | rfl
    · exact hquiet k hnk hki choice hmove
    · cases hends.move.symm.trans hmove
  · have hp := WaitWhilePhase.isEvaluated_of_holds hholds
    exact hloop.not_releases (WaitWhilePhase.not_body_of_evaluated hp)
      (WaitWhilePhase.part_of_evaluated hp) hreleases

/-- A mutex that the last evaluation has not given up is had at the end of the loop. -/
theorem EndsLoop.has {woken : Bool} (h : r.EndsLoop c l timeout t b i (.replied (.flag woken)))
    (hhas : r.Has l t b) (hevaluates : r.EvaluatesTo c l timeout t b n (!woken)) (hni : n < i)
    (hreleases : ∀ k, n ≤ k → k ≤ i → ¬ r.Releases l t k)
    (hkeeps : ¬ r.GivesUp c l timeout t b n) : r.Has l t (i + 1) := by
  obtain ⟨p, hloop⟩ := h.lasts
  obtain ⟨answer, ⟨⟨start, htest⟩, -, -⟩, -⟩ := hevaluates
  have hkept : ∀ k, n ≤ k → k ≤ i + 1 → r.Has l t k := by
    intro k hnk
    induction hnk with
    | refl => exact fun _ => htest.holds hhas hkeeps
    | @step k hnk ih =>
      intro hki
      have hki : k ≤ i := Nat.le_of_succ_le_succ hki
      have hk := ih (Nat.le_succ_of_le hki)
      obtain ⟨q, hq⟩ := hloop.before (Nat.lt_of_lt_of_le htest.lt hnk) hki
      exact hk.succ (hq.lock_stays hk.initialized) (hreleases k hnk hki)
  exact hkept (i + 1) (Nat.le_succ_of_le (Nat.le_of_lt hni)) (Nat.le_refl _)

/-- A wait of a loop comes right after an evaluation, and is given what is left of the limit. -/
theorem InLoop.granted {rest : Option Duration} {q : WaitPhase}
    (h : r.InLoop c l timeout t b i (.waiting start rest q)) :
    ∃ n m, r.EvaluatesTo c l timeout t b n true ∧ r.NextStep t (n + 1) m .working ∧
      r.InWait (fun p => .waitWhile c l timeout (.waiting start rest p)) t (m + 1) i q ∧
      ∀ j first, r.NextStep t (b + 1) j first →
        rest.map (fun d => d.nanos + (r.state m).store.clock.nanos) =
          timeout.map fun d => d.nanos + (r.state j).store.clock.nanos := by
  obtain ⟨m, -, hmeasure, ⟨choice, hmove⟩, hstep, hwait⟩ := h.lent
  obtain ⟨n, hnm, hevaluates, hquiet⟩ := hmeasure.evaluated rfl
  obtain ⟨outer, hget, -⟩ := hmeasure.get rfl
  have hnext : (Call.waitWhile c l timeout (.measure start)).step t choice (r.state m).store =
      .next (r.state m).store (.waitWhile c l timeout (.waiting start rest .entry)) := by
    rw [Call.step, Call.lift, hstep]
    rfl
  refine ⟨n, m, hevaluates, ⟨hnm, ⟨choice, hmove, ?_⟩, fun k hnk => hquiet k hnk⟩, hwait, ?_⟩
  · rw [Machine.advance_of_next hget hnext rfl]
    rfl
  · intro j first hfirst
    obtain ⟨j', hj, hopened, rfl⟩ := hmeasure.opened rfl
    obtain rfl := hfirst.unique hopened
    cases timeout with
    | none =>
      cases hstep
      rfl
    | some limit =>
      -- what is left is the limit less the time since the loop began
      have hle := r.clock_mono (Nat.le_of_lt hj)
      rcases limit.left_cases hle with ⟨hnone, -⟩ | ⟨d, hd, hleft⟩
      · cases hstep.symm.trans (WaitWhilePhase.step_over hnone)
      · cases hstep.symm.trans (WaitWhilePhase.step_left hd)
        exact congrArg some hleft

/-- However a wait ends, the loop has the mutex back, and evaluates its condition again. -/
theorem FinishesWait.again {woken : Bool} (h : r.FinishesWait c l timeout t b n woken) :
    ∃ start, r.InLoop c l timeout t b (n + 1) (.test start) ∧ r.Has l t (n + 1) := by
  obtain ⟨start, rest, q, hloop, ⟨choice, hmove⟩, s', hstep⟩ := h
  obtain ⟨m, -, -, -, -, hwait⟩ := hloop.lent
  have hagain : (WaitWhilePhase.waiting start rest q).step t c l timeout (r.state n).store =
      .next s' (.test start) := by
    rw [WaitWhilePhase.step, hstep]
    rfl
  exact ⟨start, hloop.goes_of_next hmove rfl hagain, hwait.has_of_done (.loop timeout start) hstep⟩

/-- The first step of a loop comes to its condition. -/
theorem loop_opens (hbegin : r.move b = .begin t (.waitingWhile c l timeout)) {first : Notice}
    (hfirst : r.NextStep t (b + 1) j first) : first = .body ∧
      r.InLoop c l timeout t b (j + 1) (.test (r.state j).store.clock) := by
  have hloop := (InLoop.begins hbegin).until rfl hfirst
  obtain ⟨choice, hmove, rfl⟩ := hfirst.step
  obtain ⟨outer, hget, -⟩ := hloop.get rfl
  exact ⟨(loop_begins (Machine.call?_of_get hget) choice).1, hloop.goes_of_next hmove rfl rfl⟩

/-! ## What a caller can rely on

The fields of `AwaitsCondition` in the order in which a loop comes to them; each of them has been
proved above. -/

/-- How a loop around waits that thread `t` begins in move `b` treats its condition, its mutex and
its time. -/
structure AwaitsCondition (r : Run) (c : CondRef) (l : LockRef) (timeout : Option Duration)
    (t : Tid) (b : Nat) : Prop where
  /-- The condition is evaluated before any waiting. -/
  opens : ∀ j first, r.NextStep t (b + 1) j first → first = .body ∧
    r.InLoop c l timeout t b (j + 1) (.test (r.state j).store.clock)
  /-- It is evaluated with the mutex, unless the evaluation itself gives it up. -/
  holds : ∀ i start, r.InLoop c l timeout t b i (.test start) →
    ¬ r.GivesUp c l timeout t b i → r.Has l t i
  /-- The loop returns with the thread's first step after an evaluation, and is woken if the
  condition did not hold. From then on the mutex is not released. -/
  returns : ∀ i woken, r.EndsLoop c l timeout t b i (.replied (.flag woken)) →
    ∃ n, r.EvaluatesTo c l timeout t b n (!woken) ∧
      r.NextStep t (n + 1) i (.replied (.flag woken)) ∧
      (∀ k, n ≤ k → k ≤ i → ¬ r.Releases l t k) ∧
      (¬ r.GivesUp c l timeout t b n → r.Has l t (i + 1))
  /-- There has been one more evaluation than waits. -/
  counts : ∀ i woken, r.EndsLoop c l timeout t b i (.replied (.flag woken)) →
    r.evaluations c l timeout t b i = r.finishedWaits c l timeout t b i + 1
  met : ∀ n i notice, r.EvaluatesTo c l timeout t b n false →
    r.NextStep t (n + 1) i notice → r.EndsLoop c l timeout t b i (.replied (.flag true))
  /-- An untimed loop waits as long as the condition holds. -/
  untimed : timeout = none →
    (∀ i woken, r.EndsLoop c l timeout t b i (.replied (.flag woken)) → woken = true) ∧
    ∀ n i notice, r.EvaluatesTo c l timeout t b n true →
      r.NextStep t (n + 1) i notice → ∃ start,
        r.InLoop c l timeout t b (i + 1) (.waiting start none .entry)
  /-- A timed loop waits too, until more time than the limit has passed since its first step. -/
  timed : ∀ limit, timeout = some limit → ∀ j first, r.NextStep t (b + 1) j first →
    ∀ n i notice, r.EvaluatesTo c l timeout t b n true →
      r.NextStep t (n + 1) i notice →
      let start := (r.state j).store.clock
      let now := (r.state i).store.clock
      start.nanos ≤ now.nanos ∧
        (r.EndsLoop c l timeout t b i (.replied (.flag false)) ↔
          limit.nanos + start.nanos < now.nanos) ∧
        (now.nanos ≤ limit.nanos + start.nanos →
          ∃ rest, r.InLoop c l timeout t b (i + 1) (.waiting start (some rest) .entry))
  /-- A wait begins with the thread's first step after an evaluation, and is given what is left of
  the limit at that moment. -/
  waits : ∀ i start rest p, r.InLoop c l timeout t b i (.waiting start rest p) →
    ∃ n m, r.EvaluatesTo c l timeout t b n true ∧ r.NextStep t (n + 1) m .working ∧
      r.InWait (fun p => .waitWhile c l timeout (.waiting start rest p)) t (m + 1) i p ∧
      ∀ j first, r.NextStep t (b + 1) j first →
        rest.map (fun d => d.nanos + (r.state m).store.clock.nanos) =
          timeout.map fun d => d.nanos + (r.state j).store.clock.nanos
  /-- However a wait ends, the condition is evaluated again. -/
  again : ∀ n woken, r.FinishesWait c l timeout t b n woken →
    ∃ start, r.InLoop c l timeout t b (n + 1) (.test start) ∧ r.Has l t (n + 1)

/-- In every run, a loop around waits that is begun with the mutex evaluates its condition with the
mutex, and only the evaluations and the time decide how it ends. -/
theorem condition_awaited (hbegin : r.move b = .begin t (.waitingWhile c l timeout))
    (hhas : r.Has l t b) : r.AwaitsCondition c l timeout t b where
  opens := fun _ _ => loop_opens hbegin
  holds := fun _ _ hloop hkeeps => hloop.holds hhas hkeeps
  returns := by
    intro i woken hends
    obtain ⟨n, hevaluates, hnext, hreleases⟩ := hends.evaluated
    exact ⟨n, hevaluates, hnext, hreleases, hends.has hhas hevaluates hnext.le hreleases⟩
  counts := fun _ _ => EndsLoop.counted
  met := fun _ _ _ => EvaluatesTo.ends
  untimed := by
    rintro rfl
    exact ⟨fun _ _ => EndsLoop.woken, fun _ _ _ => EvaluatesTo.waits⟩
  timed := by
    rintro limit rfl j first hfirst n i notice hevaluates hnext
    exact hevaluates.measured hnext hfirst
  waits := fun _ _ _ _ => InLoop.granted
  again := fun _ _ => FinishesWait.again

/-- Thread 0 waits at most for no time at all, as long as a condition holds that holds twice. After
the first wait the time is over. -/
def overdue : Run :=
  ofList
    ([.create (.mutex true), .create .condition, .begin 0 (.initCond 1 .native)] ++ steps 0 1 ++
      .begin 0 (.locking 0) :: steps 0 4 ++ .begin 0 (.waitingWhile 1 0 (some .zero)) ::
      steps 0 1 ++ .endBody 0 (.returned .yes) :: steps 0 11 ++
      .endBody 0 (.returned .yes) :: .tick 1 :: steps 0 1)
    (by decide +kernel)

/-- The loop ends without being woken. -/
theorem condition_awaited_overdue :
    overdue.move 9 = .begin 0 (.waitingWhile 1 0 (some .zero)) ∧ overdue.Has 0 0 9 ∧
      overdue.AwaitsCondition 1 0 (some .zero) 0 9 ∧
      ((overdue.state 25).advance 0 ⟨0, false⟩).2 = .replied (.flag false) :=
  have hhas : overdue.Has 0 0 9 := holder_iff_has.1 (by decide +kernel)
  ⟨rfl, hhas, condition_awaited rfl hhas, by decide +kernel⟩

end Run

end Interlock
