import Interlock.Proofs.Once.Tenancy

/-!
# Passing a run-once gate

What callers of a gate can rely on, whoever else calls it and whatever the callbacks do.

  * `Run.Succeeds`, `Run.Starts`: the moments at which callbacks end and start;
  * `Machine.Passed`: a callback has succeeded, whether or not the flag says so yet;
    `Run.Gate.passed_iff` ties this to the past;
  * `Run.Ongoing`, `Run.OwnEnds`: a call from its beginning on, and how its own callback ended;
  * `Run.Steps`: the steps that a thread takes, however many steps of others lie between them;
  * `Run.OnceOnly`, `Run.Gate.once_only`: one callback at most succeeds, no two overlap, calls
    return what they should, the flag never falls back, a failure leaves the gate open, and a call
    from inside a callback panics.

Two things stand between the code and what callers see. A callback is client's code, so its thread
may make any number of moves before it ends, calls on the same gate among them; therefore a call is
followed through the stack of its thread, whatever is above it. And the flag is raised a step after
a callback has succeeded, so that callers that arrive in between are told the right thing by the
mutex and not by the flag.
-/

namespace Interlock

/-! ## Phases that follow each other

The graph of a call on a gate: a look at the flag, the mutex, a second look, and then either the
callback or the way out. What the call replies is settled when it begins to unlock. -/

/-- The phases that the steps of a call on a gate lead to. -/
inductive OncePhase.Leads : OncePhase → OncePhase → Prop
  | enter : Leads fast (locking .entry)
  | locking {p p' : LockPhase} : Leads (locking p) (locking p')
  | locked {p : LockPhase} : Leads (locking p) recheck
  | start : Leads recheck callback
  | late : Leads recheck (unlocking .entry .passed)
  | completed : Leads complete (unlocking .entry .passed)
  | unlocking {p p' : UnlockPhase} {finish : OnceEnd} :
    Leads (unlocking p finish) (unlocking p' finish)

/-- What a call on a gate replies, in phase `p`, if the flag is `completed`. -/
inductive OncePhase.Replies (completed : Bool) : OncePhase → Answer → Prop
  | fast (h : completed = true) : Replies completed fast .yes
  | passed {p : UnlockPhase} : Replies completed (unlocking p .passed) .yes
  | failed {p : UnlockPhase} {error : String} :
    Replies completed (unlocking p (.failed error)) (.no error)

variable {t u : Tid} {o : OnceRef} {l : LockRef} {s : Store}

/-- The steps of a call on a gate follow the graph. -/
theorem OncePhase.step_leads (p : OncePhase) :
    (p.step t o s).Meets (fun _ p' => p.Leads p') (fun _ answer => p.Replies (s.completed o) answer)
      (fun _ => True) := by
  cases p with
  | fast =>
    simp only [step]
    split
    · exact .fast ‹_›
    · exact .enter
  | locking q =>
    exact Progress.Meets.within q.step_apart (fun _ _ _ => .locking) (fun _ _ _ => .locked)
      fun _ _ => trivial
  | recheck =>
    simp only [step]
    split
    · exact .late
    · exact .start
  | callback => trivial
  | complete => exact .completed
  | unlocking q finish =>
    refine Progress.Meets.within (q.step_apart.whileUnwinding finish.panic?)
      (fun _ _ _ => .unlocking) ?_ fun _ _ => trivial
    intro s' _ _
    cases finish with
    | passed => exact .passed
    | failed error => exact .failed
    | panicked why => trivial

/-- The step of a call on a gate that goes on, as a step of the gate's code. -/
theorem Call.once_next {choice : Choice} {p : OncePhase} {s' : Store} {call' : Call}
    (h : (once o p).step t choice s = .next s' call') :
    ∃ p', p.step t o s = .next s' p' ∧ call' = once o p' ∧ p.Leads p' := by
  have hleads := p.step_leads (t := t) (o := o) (s := s)
  simp only [step, lift] at h
  cases hp : p.step t o s <;> rw [hp] at h hleads <;> cases h
  exact ⟨_, rfl, rfl, hleads⟩

/-! ## Whether a callback has succeeded

The flag is raised one step after the callback has succeeded, so the two do not say the same.
`Passed` is what is common to both moments, and it is what the past is compared with. -/

namespace Machine

variable {m : Machine} {p : OncePhase}

/-- A callback has succeeded: the flag says so, or it is about to. -/
def Passed (m : Machine) (o : OnceRef) : Prop :=
  m.store.completed o = true ∨ ∃ t, m.call? t = some (.once o .complete)

theorem get_of_call? {call : Call} (h : m.call? t = some call) :
    ∃ outer, m.calls.get t = call :: outer :=
  List.head?_eq_some_iff.1 h

/-- While a tenant finds the flag down and is not about to raise it, no callback has succeeded. -/
theorem Guarded.not_passed (h : m.Guarded o l) {d : Nat} (hframe : m.frame t d = some (.once o p))
    (htenant : p.isTenant = true) (hp : p ≠ .complete) (hflag : m.store.completed o = false) :
    ¬ m.Passed o := by
  rintro (hcompleted | ⟨u, hu⟩)
  · rw [hflag] at hcompleted
    cases hcompleted
  · obtain ⟨outer, hget⟩ := get_of_call? hu
    have hother := frame_head hget
    obtain rfl : t = u := Option.some.inj
      ((h.holds t d p hframe htenant).symm.trans (h.holds u _ _ hother rfl))
    rw [h.single t d _ p _ hframe htenant hother rfl, hother] at hframe
    cases hframe
    exact hp rfl

end Machine

namespace Run

section

variable (r : Run) (o : OnceRef)

/-- The callback of thread `t` ends in move `i`. -/
def Ends (t : Tid) (e : BodyEnd) (i : Nat) : Prop :=
  r.move i = .endBody t e ∧ (r.state i).call? t = some (.once o .callback)

/-- The callback of thread `t` succeeds in move `i`. -/
def Succeeds (t : Tid) (i : Nat) : Prop := r.Ends o t (.returned .yes) i

/-- Thread `t` starts a callback in move `i`. -/
def Starts (t : Tid) (i : Nat) : Prop :=
  ∃ choice, r.move i = .advance t choice ∧ (r.state i).call? t = some (.once o .recheck) ∧
    (r.state (i + 1)).call? t = some (.once o .callback)

end

variable {r : Run} {start i j n : Nat} {e : BodyEnd} {choice : Choice} {p : OncePhase}
  {outer : List Call}

/-- What the end of a callback leads to. -/
theorem Ends.resumed (h : r.Ends o t e i) :
    ∃ outer, (r.state i).calls.get t = .once o .callback :: outer ∧
      (r.state (i + 1)).calls.get t = .once o (OncePhase.callback.resume e) :: outer := by
  obtain ⟨hmove, hcall⟩ := h
  obtain ⟨outer, hget⟩ := Machine.get_of_call? hcall
  refine ⟨outer, hget, ?_⟩
  rw [state_succ, hmove, Machine.apply, Machine.endBody_of_get hget]
  exact Table.get_set_self ..

/-- A call on a gate goes on when its thread takes a step. -/
theorem next_of_step (hmove : r.move i = .advance t choice)
    (hget : (r.state i).calls.get t = .once o p :: outer) {s' : Store} {p' : OncePhase}
    (hstep : p.step t o (r.state i).store = .next s' p') :
    (r.state (i + 1)).store = s' ∧ (r.state (i + 1)).calls.get t = .once o p' :: outer := by
  rw [state_of_advance hmove, Machine.advance_once choice hget, hstep]
  exact ⟨rfl, Table.get_set_self _ _ _⟩

namespace Gate

/-- No call is on a gate that does not exist yet. -/
theorem born (h : r.Gate o l start) {call : Call} (hcall : call ∈ (r.state i).calls.get t)
    (hmem : .once o ∈ call.objects (r.state i).store) : start < i := by
  apply Nat.lt_of_not_le
  intro hle
  have ho : o < (r.state i).store.nextHandle :=
    Call.handle_lt_of_knows ((r.state_sound i).known t call hcall) hmem
  have hmono := Nat.lt_of_lt_of_le ho (r.nextHandle_mono hle)
  rw [h.gate] at hmono
  exact Nat.lt_irrefl _ (Nat.lt_of_succ_lt hmono)

theorem born_of_get (h : r.Gate o l start)
    (hget : (r.state i).calls.get t = .once o p :: outer) : start < i :=
  h.born (hget ▸ List.mem_cons_self) List.mem_cons_self

/-- While a thread is about to raise the flag, its step raises it. -/
theorem completes (hmove : r.move i = .advance t choice)
    (hget : (r.state i).calls.get t = .once o .complete :: outer) :
    (r.state (i + 1)).store.completed o = true ∧
      (r.state (i + 1)).calls.get t = .once o (.unlocking .entry .passed) :: outer := by
  obtain ⟨hstore, hcalls⟩ := next_of_step hmove hget rfl
  refine ⟨?_, hcalls⟩
  rw [hstore]
  simp [Store.completed, Store.setOnce]

/-- The flag stays as it is, unless a thread raises it in this move. -/
theorem completed_succ (h : r.Gate o l start) (hi : start < i) :
    (r.state (i + 1)).store.completed o = (r.state i).store.completed o ∨
      ∃ t choice outer, r.move i = .advance t choice ∧
        (r.state i).calls.get t = .once o .complete :: outer := by
  by_cases hmove : ∃ t choice outer, r.move i = .advance t choice ∧
      (r.state i).calls.get t = .once o .complete :: outer
  · exact .inr hmove
  · refine .inl ((r.state_change i).completed (h.guarded hi).known ?_)
    intro t choice outer heq hget
    exact hmove ⟨t, choice, outer, heq, hget⟩

/-- The flag never falls back. -/
theorem completed_mono (h : r.Gate o l start) (hi : start < i) (hin : i ≤ n)
    (hflag : (r.state i).store.completed o = true) : (r.state n).store.completed o = true := by
  induction hin with
  | refl => exact hflag
  | @step n hin ih =>
    rcases h.completed_succ (Nat.lt_of_lt_of_le hi hin) with hsame | ⟨t, choice, outer, hmove, hget⟩
    · exact hsame.trans ih
    · exact (completes hmove hget).1

/-- A thread that is about to raise the flag was so before, or its callback has just succeeded. -/
theorem complete_succ (hget : (r.state (i + 1)).calls.get t = .once o .complete :: outer) :
    (r.state i).calls.get t = .once o .complete :: outer ∧
        (∀ choice, r.move i ≠ .advance t choice) ∨ r.Succeeds o t i := by
  have hsound := r.state_sound i
  -- a call gets to this phase by no step of its own, only out of the body
  cases (r.state_change i).turned hsound (Machine.frame_head hget) with
  | kept hkept =>
    obtain ⟨outer', hget', -⟩ := Machine.get_of_frame hsound hkept rfl
    have hmove (choice : Choice) : r.move i ≠ .advance t choice := by
      intro hmove
      cases (completes hmove hget').2.symm.trans hget
    cases hget.symm.trans ((r.state_change i).calls_kept hsound hget' rfl hmove)
    exact .inl ⟨hget', hmove⟩
  | begun _ hfresh => cases hfresh
  | @resumed e call outer' hmove hget' hbody _ hcall =>
    cases Machine.once_of_resume hbody hcall.symm
    refine .inr ⟨?_, Machine.call?_of_get hget'⟩
    rcases e with ⟨_ | _⟩ | why <;> cases hcall
    exact hmove
  | @next choice call outer' hmove hget' _ hstep =>
    obtain ⟨q, rfl⟩ := Machine.once_of_next hstep
    obtain ⟨q', -, hcall, hleads⟩ := Call.once_next hstep
    cases hcall
    cases hleads
  | born _ hcall => cases hcall

/-- A callback has succeeded after a move if it had before, or succeeds in this move. -/
theorem passed_succ (h : r.Gate o l start) (hi : start < i) :
    (r.state (i + 1)).Passed o ↔ (r.state i).Passed o ∨ ∃ t, r.Succeeds o t i := by
  constructor
  · rintro (hflag | ⟨t, ht⟩)
    · rcases h.completed_succ hi with hsame | ⟨t, choice, outer, -, hget⟩
      · exact .inl (.inl (hsame.symm.trans hflag))
      · exact .inl (.inr ⟨t, Machine.call?_of_get hget⟩)
    · obtain ⟨outer, hget⟩ := Machine.get_of_call? ht
      rcases complete_succ hget with ⟨hget', -⟩ | hsucceeds
      · exact .inl (.inr ⟨t, Machine.call?_of_get hget'⟩)
      · exact .inr ⟨t, hsucceeds⟩
  · rintro ((hflag | ⟨t, ht⟩) | ⟨t, hsucceeds⟩)
    · exact .inl (h.completed_mono hi (Nat.le_succ i) hflag)
    · obtain ⟨outer, hget⟩ := Machine.get_of_call? ht
      by_cases hmove : ∃ choice, r.move i = .advance t choice
      · obtain ⟨choice, hmove⟩ := hmove
        exact .inl (completes hmove hget).1
      · have hkept := (r.state_change i).calls_kept (r.state_sound i) hget rfl
          fun choice heq => hmove ⟨choice, heq⟩
        exact .inr ⟨t, Machine.call?_of_get hkept⟩
    · obtain ⟨outer, -, hget⟩ := hsucceeds.resumed
      exact .inr ⟨t, Machine.call?_of_get hget⟩

/-- A new gate is open, and nobody is in a call on it. -/
theorem opened (h : r.Gate o l start) :
    (r.state (start + 1)).store.completed o = false ∧
      (r.state (start + 1)).calls = (r.state start).calls := by
  have hstate : r.state (start + 1) =
      ⟨(r.state start).store.addOnce.1, (r.state start).calls⟩ := by
    rw [state_succ, h.created]
    rfl
  rw [hstate, h.gate]
  refine ⟨?_, rfl⟩
  simp [Store.completed, Store.addOnce, Store.addMutex, Store.takeHandle, Store.setMutex,
    Store.setOnce]

/-- A callback has succeeded if one ended so. -/
theorem passed_iff (h : r.Gate o l start) (hi : start < i) :
    (r.state i).Passed o ↔ ∃ t k, k < i ∧ r.Succeeds o t k := by
  -- from the creation of the gate on, with `passed_succ` for each move
  induction hi with
  | refl =>
    obtain ⟨hopen, hcalls⟩ := h.opened
    constructor
    · rintro (hflag | ⟨t, ht⟩)
      · cases hopen.symm.trans hflag
      · obtain ⟨outer, hget⟩ := Machine.get_of_call? ht
        rw [hcalls] at hget
        exact absurd (h.born_of_get hget) (Nat.lt_irrefl _)
    · rintro ⟨t, k, hk, -, hcall⟩
      obtain ⟨outer, hget⟩ := Machine.get_of_call? hcall
      exact absurd (h.born_of_get hget) (Nat.not_lt.2 (Nat.le_of_lt_succ hk))
  | @step i hi ih =>
    rw [h.passed_succ hi, ih]
    constructor
    · rintro (⟨t, k, hk, hsucceeds⟩ | ⟨t, hsucceeds⟩)
      · exact ⟨t, k, Nat.lt_succ_of_lt hk, hsucceeds⟩
      · exact ⟨t, i, Nat.lt_succ_self i, hsucceeds⟩
    · rintro ⟨t, k, hk, hsucceeds⟩
      rcases Nat.lt_or_eq_of_le (Nat.le_of_lt_succ hk) with hk | rfl
      · exact .inl ⟨t, k, hk, hsucceeds⟩
      · exact .inr ⟨t, hsucceeds⟩

/-- While a callback runs, none has succeeded before. -/
theorem not_succeeded (h : r.Gate o l start)
    (hget : (r.state i).calls.get t = .once o p :: outer) (htenant : p.isTenant = true)
    (hp : p ≠ .complete) (hflag : (r.state i).store.completed o = false) {k : Nat}
    (hk : k < i) : ¬ r.Succeeds o u k := by
  intro hsucceeds
  have hi := h.born_of_get hget
  exact (h.guarded hi).not_passed (Machine.frame_head hget) htenant hp hflag
    ((h.passed_iff hi).2 ⟨u, k, hk, hsucceeds⟩)

/-- One callback at most succeeds. -/
theorem succeeds_unique (h : r.Gate o l start) (hi : r.Succeeds o t i) (hj : r.Succeeds o u j) :
    i = j := by
  have hbefore {t u : Tid} {i j : Nat} (hi : r.Succeeds o t i) (hj : r.Succeeds o u j) :
      ¬ i < j := by
    intro hij
    obtain ⟨outer, hget, -⟩ := hj.resumed
    have hopen := (h.guarded (h.born_of_get hget)).fits u _ _ (Machine.frame_head hget)
    exact h.not_succeeded hget rfl (by simp) hopen hij hi
  exact Nat.le_antisymm (Nat.not_lt.1 (hbefore hj hi)) (Nat.not_lt.1 (hbefore hi hj))

/-- No callback starts once one has succeeded. -/
theorem starts_before (h : r.Gate o l start) (hi : r.Starts o t i) (hj : r.Succeeds o u j) :
    i < j := by
  obtain ⟨choice, hmove, hbefore, hafter⟩ := hi
  obtain ⟨outer, hget⟩ := Machine.get_of_call? hbefore
  have hopen : (r.state i).store.completed o = false := by
    rw [← Bool.not_eq_true]
    intro hflag
    have hstep : OncePhase.recheck.step t o (r.state i).store =
        .next (r.state i).store (.unlocking .entry .passed) := if_pos hflag
    rw [Machine.call?_of_get (next_of_step hmove hget hstep).2] at hafter
    cases hafter
  apply Nat.lt_of_not_le
  intro hji
  rcases Nat.lt_or_eq_of_le hji with hji | rfl
  · exact h.not_succeeded hget rfl (by simp) hopen hji hj
  · cases hmove.symm.trans hj.1

/-- Two callbacks do not overlap. -/
theorem callbacks_alone (h : r.Gate o l start) {d d' : Nat}
    (hframe : (r.state i).frame t d = some (.once o .callback))
    (hframe' : (r.state i).frame u d' = some (.once o .callback)) : t = u ∧ d = d' := by
  have hi := h.born (Machine.mem_of_frame hframe) List.mem_cons_self
  have hguarded := h.guarded hi
  obtain rfl : t = u := Option.some.inj
    ((hguarded.holds t d _ hframe rfl).symm.trans (hguarded.holds u d' _ hframe' rfl))
  exact ⟨rfl, hguarded.single t d d' _ _ hframe rfl hframe' rfl⟩

end Gate

/-! ### The flag

From `Passed` back to the flag itself. -/

/-- A thread that is about to raise the flag has not moved since its callback succeeded. -/
theorem complete_since (hget : (r.state i).calls.get t = .once o .complete :: outer) :
    ∃ j < i, r.Succeeds o t j ∧ ∀ k, j < k → k < i → ∀ choice, r.move k ≠ .advance t choice := by
  induction i with
  | zero => cases hget
  | succ i ih =>
    rcases Gate.complete_succ hget with ⟨hget', hmove⟩ | hsucceeds
    · obtain ⟨j, hj, hsucceeds, hquiet⟩ := ih hget'
      refine ⟨j, Nat.lt_succ_of_lt hj, hsucceeds, ?_⟩
      intro k hjk hki
      rcases Nat.lt_or_eq_of_le (Nat.le_of_lt_succ hki) with hki | rfl
      · exact hquiet k hjk hki
      · exact hmove
    · exact ⟨i, Nat.lt_succ_self i, hsucceeds, fun k hik hki => by omega⟩

/-- A thread in the middle of a call goes on with it only in its next step. -/
theorem NextStep.calls {call : Call} {notice : Notice} (h : r.NextStep t i n notice)
    (hget : (r.state i).calls.get t = call :: outer) (hbody : call.atBody = false) :
    (r.state n).calls.get t = call :: outer := by
  have hquiet := h.quiet
  have hle := h.le
  clear h
  induction hle with
  | refl => exact hget
  | @step n hin ih =>
    exact (r.state_change n).calls_kept (r.state_sound n)
      (ih fun k hik hkn => hquiet k hik (Nat.lt_succ_of_lt hkn)) hbody
      (hquiet n hin (Nat.lt_succ_self n))

/-- The flag is raised in the first step after the successful callback, and in no other. -/
theorem Gate.completed_iff (h : r.Gate o l start) (hi : start < i) :
    (r.state i).store.completed o = true ↔
      ∃ t j k notice, r.Succeeds o t j ∧ r.NextStep t (j + 1) k notice ∧ k < i := by
  constructor
  · intro hflag
    induction hi with
    | refl => cases h.opened.1.symm.trans hflag
    | @step i hi ih =>
      rcases h.completed_succ hi with hsame | ⟨t, choice, outer, hmove, hget⟩
      · obtain ⟨t, j, k, notice, hsucceeds, hnext, hk⟩ := ih (hsame.symm.trans hflag)
        exact ⟨t, j, k, notice, hsucceeds, hnext, Nat.lt_succ_of_lt hk⟩
      · obtain ⟨j, hj, hsucceeds, hquiet⟩ := complete_since hget
        exact ⟨t, j, i, _, hsucceeds, ⟨hj, ⟨choice, hmove, rfl⟩, hquiet⟩, Nat.lt_succ_self i⟩
  · rintro ⟨t, j, k, notice, hsucceeds, hnext, hk⟩
    obtain ⟨outer, hcallback, hget⟩ := hsucceeds.resumed
    obtain ⟨choice, hmove, -⟩ := hnext.step
    have hj := h.born_of_get hcallback
    have hjk : j < k := hnext.le
    exact h.completed_mono (Nat.lt_succ_of_lt (Nat.lt_trans hj hjk)) hk
      (completes hmove (hnext.calls hget rfl)).1

/-! ### What calls return

A call may run callbacks of other gates, and calls on this one that panic, before its own callback
ends. Its own one is told by its depth. -/

/-- The number of calls that thread `t` is in. -/
def depth (r : Run) (t : Tid) (i : Nat) : Nat := ((r.state i).calls.get t).length

/-- The call on the gate that thread `t` begins in move `j` has not ended before move `i`. -/
structure Ongoing (r : Run) (o : OnceRef) (t : Tid) (j i : Nat) : Prop where
  begins : r.move j = .begin t (.passing o)
  after : j < i
  lives : ∀ k, j < k → k ≤ i → r.depth t j < r.depth t k

/-- The callback of the call that thread `t` begins in move `j` has ended before move `i`. -/
def OwnEnds (r : Run) (o : OnceRef) (t : Tid) (j i : Nat) (e : BodyEnd) : Prop :=
  ∃ k, j < k ∧ k < i ∧ r.Ends o t e k ∧ r.depth t k = r.depth t j + 1

/-- The call that thread `t` begins in move `j` returns this answer in move `i`. -/
structure Answers (r : Run) (o : OnceRef) (t : Tid) (j i : Nat) (answer : Answer) : Prop where
  ongoing : r.Ongoing o t j i
  depth : r.depth t i = r.depth t j + 1
  step : ∃ choice, r.move i = .advance t choice ∧
    ((r.state i).advance t choice).2 = .replied (.answer answer)

/-- The callback of a call has ended because it had before, or does so in this move. -/
theorem OwnEnds.succ_iff : r.OwnEnds o t j (i + 1) e ↔
    r.OwnEnds o t j i e ∨ j < i ∧ r.Ends o t e i ∧ r.depth t i = r.depth t j + 1 := by
  constructor
  · rintro ⟨k, hjk, hki, hends, hdepth⟩
    rcases Nat.lt_or_eq_of_le (Nat.le_of_lt_succ hki) with hki | rfl
    · exact .inl ⟨k, hjk, hki, hends, hdepth⟩
    · exact .inr ⟨hjk, hends, hdepth⟩
  · rintro (⟨k, hjk, hki, hends, hdepth⟩ | ⟨hji, hends, hdepth⟩)
    · exact ⟨k, hjk, Nat.lt_succ_of_lt hki, hends, hdepth⟩
    · exact ⟨i, hji, Nat.lt_succ_self i, hends, hdepth⟩

/-- An ongoing call stays at its depth, and gives the gate up as failed with an error exactly if its
own callback gave that error. -/
theorem Ongoing.phase (h : r.Ongoing o t j i) :
    ∃ p, (r.state i).frame t (r.depth t j) = some (.once o p) ∧
      ∀ error, r.OwnEnds o t j i (.returned (.no error)) ↔
        ∃ q, p = .unlocking q (.failed error) := by
  obtain ⟨hbegins, hji, hlives⟩ := h
  induction hji with
  | refl =>
    refine ⟨.fast, ?_, ?_⟩
    · rw [state_succ, hbegins]
      simp only [Machine.apply, Machine.begin, Machine.frame, Table.get_set_self,
        Machine.frame_cons]
      exact if_pos rfl
    · intro error
      constructor
      · rintro ⟨k, hjk, hki, -⟩
        omega
      · rintro ⟨q, hq⟩
        cases hq
  | @step i hji ih =>
    have hji : j < i := hji
    obtain ⟨p, hframe, hown⟩ := ih fun k hjk hki => hlives k hjk (Nat.le_succ_of_le hki)
    have hsound := r.state_sound i
    have hlt := Machine.lt_of_frame hframe
    obtain ⟨call', hframe'⟩ : ∃ call',
        (r.state (i + 1)).frame t (r.depth t j) = some call' := by
      have hlength := hlives (i + 1) (Nat.lt_succ_of_lt hji) (Nat.le_refl _)
      exact ⟨_, List.getElem?_eq_getElem (by simpa [depth] using hlength)⟩
    -- the innermost call of a thread is at the depth of the call
    have hhead {call : Call} {outer : List Call} (hget : (r.state i).calls.get t = call :: outer)
        (hdepth : r.depth t j = outer.length) : call = .once o p := by
      rw [hdepth, Machine.frame_head hget] at hframe
      exact Option.some.inj hframe
    simp only [hframe', OwnEnds.succ_iff, hown]
    cases (r.state_change i).turned hsound hframe' with
    | kept hkept =>
      rw [hframe] at hkept
      cases hkept
      refine ⟨p, rfl, fun error => ⟨?_, .inl⟩⟩
      rintro (hq | ⟨-, hends, hdepth⟩)
      · exact hq
      · -- a callback that ends does not stay where it was
        obtain ⟨outer, hget, hget'⟩ := hends.resumed
        have houter : r.depth t j = outer.length := by
          simpa [depth, hget] using hdepth.symm
        cases hhead hget houter
        rw [houter, Machine.frame_head hget'] at hframe'
        cases hframe'
    | begun _ _ hdepth => exact absurd hlt (Nat.not_lt.2 (Nat.le_of_eq hdepth.symm))
    | @resumed e call outer hmove hget hbody hdepth hcall =>
      cases hhead hget hdepth
      obtain rfl : p = .callback := by cases p <;> first | rfl | cases hbody
      have hends : r.Ends o t e i := ⟨hmove, Machine.call?_of_get hget⟩
      have hlength : r.depth t i = r.depth t j + 1 := by rw [depth, hget, hdepth, List.length_cons]
      refine ⟨OncePhase.callback.resume e, hcall ▸ rfl, fun error => ⟨?_, ?_⟩⟩
      · rintro (⟨q, hq⟩ | ⟨-, ⟨hmove', -⟩, -⟩)
        · cases hq
        · cases hmove.symm.trans hmove'
          exact ⟨_, rfl⟩
      · rintro ⟨q, hq⟩
        rcases e with ⟨_ | error'⟩ | why <;> cases hq
        exact .inr ⟨hji, hends, hlength⟩
    | @next choice call outer hmove hget hdepth hstep =>
      cases hhead hget hdepth
      obtain ⟨p', -, rfl, hleads⟩ := Call.once_next hstep
      refine ⟨p', rfl, fun error => ⟨?_, ?_⟩⟩
      · rintro (⟨q, rfl⟩ | ⟨-, ⟨hmove', -⟩, -⟩)
        · cases hleads
          exact ⟨_, rfl⟩
        · cases hmove.symm.trans hmove'
      · rintro ⟨q, rfl⟩
        cases hleads
        exact .inl ⟨_, rfl⟩
    | born hnew => simp [Machine.frame, hnew] at hframe

/-- What a call returns tells whether a callback has succeeded before; and a call reports a failure
exactly if its own callback failed, with the same error. -/
theorem Gate.answers (h : r.Gate o l start) {answer : Answer}
    (hanswers : r.Answers o t j i answer) :
    (answer = .yes ↔ ∃ u k, k < i ∧ r.Succeeds o u k) ∧
      ∀ error, answer = .no error ↔ r.OwnEnds o t j i (.returned (.no error)) := by
  obtain ⟨hongoing, hdepth, choice, hmove, hnotice⟩ := hanswers
  obtain ⟨p, hframe, hown⟩ := hongoing.phase
  obtain ⟨outer, hget⟩ : ∃ outer, (r.state i).calls.get t = .once o p :: outer := by
    cases hget : (r.state i).calls.get t with
    | nil => simp [Machine.frame, hget] at hframe
    | cons call outer =>
      have houter : r.depth t j = outer.length := by simpa [depth, hget] using hdepth.symm
      rw [houter, Machine.frame_head hget] at hframe
      cases hframe
      exact ⟨outer, rfl⟩
  have hi := h.born_of_get hget
  -- the reply fits the phase in which it is given
  have hreplies : p.Replies ((r.state i).store.completed o) answer := by
    have hleads := p.step_leads (t := t) (o := o) (s := (r.state i).store)
    rw [Machine.advance_once choice hget] at hnotice
    cases hstep : p.step t o (r.state i).store with
    | done s' answer' =>
      rw [hstep] at hnotice hleads
      cases hnotice
      exact hleads
    | next s' p' =>
      rw [hstep] at hnotice
      dsimp only at hnotice
      split at hnotice <;> cases hnotice
    | _ =>
      rw [hstep] at hnotice
      cases hnotice
  have hfits := (h.guarded hi).fits t _ p (Machine.frame_head hget)
  simp only [hown]
  have hpassed (hflag : (r.state i).store.completed o = true) :
      ∃ u k, k < i ∧ r.Succeeds o u k := (h.passed_iff hi).1 (.inl hflag)
  cases hreplies with
  | fast hflag => exact ⟨iff_of_true rfl (hpassed hflag), by simp⟩
  | passed => exact ⟨iff_of_true rfl (hpassed hfits), by simp⟩
  | failed =>
    refine ⟨iff_of_false (by simp) ?_, by simp⟩
    rintro ⟨u, k, hk, hsucceeds⟩
    exact h.not_succeeded hget rfl (by simp) hfits hk hsucceeds

/-! ### Leaving the gate

Four steps of its thread, between which the others may move as they like. They cannot take the mutex
from the tenant, so the steps come out as they would without them. -/

/-- Thread `t` takes steps from move `i` on, up to move `n`, and this is what comes of them. Others
may move between them. -/
inductive Steps (r : Run) (t : Tid) : Nat → List Notice → Nat → Prop
  | nil {i : Nat} : Steps r t i [] i
  | cons {i k n : Nat} {notice : Notice} {notices : List Notice}
    (hnext : r.NextStep t i k notice) (hsteps : Steps r t (k + 1) notices n) :
    Steps r t i (notice :: notices) n

theorem Steps.le {notices : List Notice} (h : r.Steps t i notices n) : i ≤ n := by
  induction h with
  | nil => exact Nat.le_refl _
  | cons hnext _ ih => exact Nat.le_trans hnext.le (Nat.le_of_succ_le ih)

end Run

/-- The steps of unlocking that lie before the release. -/
def UnlockPhase.remaining : UnlockPhase → Nat
  | entry => 3
  | check _ => 2
  | disclaim => 1
  | release => 0

/-- What comes of the last step of a call on a gate. -/
def OnceEnd.notice : OnceEnd → Notice
  | passed => .replied (.answer .yes)
  | failed error => .replied (.answer (.no error))
  | panicked why => .panicked why

/-- A holder that unlocks comes nearer to the release, or leaves the mutex free. -/
theorem UnlockPhase.step_remaining (p : UnlockPhase) (hme : s.Owns t p.me?)
    (hfits : (p.grip .full).Fits s.ids.own.get (s.lock l) t) :
    (∃ s' p', p.step t l s = .next s' p' ∧ p.remaining = p'.remaining + 1) ∨
      ∃ s', p.step t l s = .done s' () ∧ p.remaining = 0 ∧ s'.lock l = some .free := by
  cases p with
  | entry =>
    have hstep : entry.step t l s = .next (s.currentId t).1 (check (s.currentId t).2) := by
      simp [step, hfits.1]
    exact .inl ⟨_, _, hstep, rfl⟩
  | check me =>
    obtain ⟨rfl, -⟩ := hme me rfl
    -- the owner word has the identity that was read
    have hstep : (check (s.ids.own.get t)).step t l s = .next s disclaim := by
      simp [step, Store.withLock, hfits.1]
    exact .inl ⟨_, _, hstep, rfl⟩
  | disclaim =>
    have hstep : disclaim.step t l s = .next (s.setLock l ⟨some t, .nobody⟩) release := by
      simp [step, Store.withLock, hfits.1, LockState.claim]
    exact .inl ⟨_, _, hstep, rfl⟩
  | release =>
    have hlock : s.lock l = _ := hfits
    refine .inr ⟨s.setLock l .free, ?_, rfl, ?_⟩
    · simp only [step, Store.withLock, hlock]
      rfl
    · simp [Store.lock, Store.setLock, Store.setMutex]

namespace Run

variable {r : Run} {start i j n : Nat} {choice : Choice} {outer : List Call}

/-- A step of a tenant that unlocks the gate: it comes nearer to the release, or it has left. -/
theorem Gate.leaves_step (h : r.Gate o l start) {q : UnlockPhase} {finish : OnceEnd}
    (hmove : r.move i = .advance t choice)
    (hget : (r.state i).calls.get t = .once o (.unlocking q finish) :: outer) :
    (((r.state i).advance t choice).2 = .working ∧ ∃ q', q.remaining = q'.remaining + 1 ∧
        (r.state (i + 1)).calls.get t = .once o (.unlocking q' finish) :: outer) ∨
      ((r.state i).advance t choice).2 = finish.notice ∧ q.remaining = 0 ∧
        (r.state (i + 1)).calls.get t = outer ∧ (r.state (i + 1)).store.lock l = some .free := by
  have hguarded := h.guarded (h.born_of_get hget)
  have hholder := hguarded.holds t _ _ (Machine.frame_head hget) rfl
  obtain ⟨howns, hfits⟩ := Machine.unlock_fits (r.state_identified i) (r.state_holds l i)
    (hguarded.part_head hget) hholder
  rw [state_of_advance hmove, Machine.advance_once choice hget]
  simp only [OncePhase.step, hguarded.gate]
  rcases q.step_remaining howns hfits with ⟨s', q', hstep, hq⟩ | ⟨s', hstep, hq, hfree⟩
  · refine .inl ?_
    rw [hstep]
    cases finish <;> exact ⟨rfl, q', hq, Table.get_set_self _ _ _⟩
  · refine .inr ?_
    rw [hstep]
    cases finish <;> exact ⟨rfl, hq, Table.get_set_self _ _ _, hfree⟩

/-- A call that gives the gate up does so in four steps; then the mutex is free, and the flag tells
whether the gate is completed. -/
theorem Gate.leaves (h : r.Gate o l start) {q : UnlockPhase} {finish : OnceEnd}
    {notices : List Notice}
    (hget : (r.state i).calls.get t = .once o (.unlocking q finish) :: outer)
    (hsteps : r.Steps t i notices n) (hlength : notices.length = q.remaining + 1) :
    notices = List.replicate q.remaining .working ++ [finish.notice] ∧
      (r.state n).calls.get t = outer ∧ (r.state n).store.lock l = some .free ∧
      (r.state n).store.completed o = (finish == .passed) := by
  -- each step of unlocking brings the call nearer to its end, and none touches the flag
  induction hsteps generalizing q with
  | nil => cases hlength
  | @cons i k n notice notices hnext hsteps ih =>
    have hget := hnext.calls hget rfl
    obtain ⟨choice, hmove, rfl⟩ := hnext.step
    rcases h.leaves_step hmove hget with ⟨hworking, q', hq, hget'⟩ | ⟨hlast, hq, hget', hfree⟩
    · obtain ⟨rfl, hrest⟩ := ih hget' (by simpa [hq] using hlength)
      rw [hq, List.replicate_succ, hworking]
      exact ⟨rfl, hrest⟩
    · obtain rfl : notices = [] := by simpa [hq] using hlength
      cases hsteps
      rw [hq, hlast]
      have hk := h.born_of_get hget
      have hflag : (r.state (k + 1)).store.completed o = (r.state k).store.completed o := by
        refine (r.state_change k).completed (h.guarded hk).known ?_
        intro u choice' outer' hmove' hget''
        cases hmove.symm.trans hmove'
        cases hget.symm.trans hget''
      refine ⟨rfl, hget', hfree, hflag.trans ?_⟩
      have hfits := (h.guarded hk).fits t _ _ (Machine.frame_head hget)
      cases finish <;> exact hfits

/-! ### Calls from inside a callback

The thread has the gate's mutex, so its second call on the gate finds itself as the owner. -/

/-- A call that panics ends. -/
theorem calls_of_panicked {call : Call} {why : Panic} (hmove : r.move i = .advance t choice)
    (hget : (r.state i).calls.get t = call :: outer)
    (hnotice : ((r.state i).advance t choice).2 = .panicked why) :
    (r.state (i + 1)).calls.get t = outer := by
  rw [state_of_advance hmove]
  simp only [Machine.advance, hget] at hnotice ⊢
  cases hstep : call.step t choice (r.state i).store with
  | fault s' why' => exact Table.get_set_self _ _ _
  | next s' call' =>
    rw [hstep] at hnotice
    dsimp only at hnotice
    split at hnotice <;> cases hnotice
  | _ =>
    rw [hstep] at hnotice
    cases hnotice

/-- A call on a gate that goes on, not to its callback. -/
theorem calls_of_working {p : OncePhase} (hmove : r.move i = .advance t choice)
    (hget : (r.state i).calls.get t = .once o p :: outer)
    (hnotice : ((r.state i).advance t choice).2 = .working) :
    ∃ p', (r.state (i + 1)).calls.get t = .once o p' :: outer ∧
      (Call.once o p').atBody = false := by
  rw [state_of_advance hmove]
  rw [Machine.advance_once choice hget] at hnotice ⊢
  cases hstep : p.step t o (r.state i).store with
  | next s' p' =>
    rw [hstep] at hnotice
    dsimp only at hnotice
    split at hnotice
    · cases hnotice
    · exact ⟨p', Table.get_set_self _ _ _, eq_false_of_ne_true ‹_›⟩
  | _ =>
    rw [hstep] at hnotice
    cases hnotice

/-- A call on the gate from inside a callback panics in its third step, and leaves everything as it
was. -/
theorem Gate.reentrant (h : r.Gate o l start) {d : Nat} {x y z : Notice}
    (hbegin : r.move j = .begin t (.passing o))
    (hcallback : (r.state j).frame t d = some (.once o .callback))
    (hsteps : r.Steps t (j + 1) [x, y, z] n) :
    x = .working ∧ y = .working ∧
      (∃ k, n = k + 1 ∧
        z = .panicked (.violation (.relocked ((r.state k).store.ids.own.get t)))) ∧
      (r.state n).calls.get t = (r.state j).calls.get t ∧
      (r.state n).store.completed o = false := by
  cases hsteps with
  | @cons _ a _ _ _ ha hsteps =>
  cases hsteps with
  | @cons _ b _ _ _ hb hsteps =>
  cases hsteps with
  | @cons _ c _ _ _ hc hsteps =>
  cases hsteps
  have hj := h.born (Machine.mem_of_frame hcallback) List.mem_cons_self
  have hget : (r.state (j + 1)).calls.get t = .once o .fast :: (r.state j).calls.get t := by
    rw [state_succ, hbegin]
    exact Table.get_set_self _ _ _
  -- as long as the calls of the thread lie on top of the callback, the gate is its own and open
  have hinside {k : Nat} {p : OncePhase}
      (hget : (r.state k).calls.get t = .once o p :: (r.state j).calls.get t) :
      (r.state k).store.holder l = some t ∧ (r.state k).store.completed o = false := by
    have hframe : (r.state k).frame t d = some (.once o .callback) := by
      have hd := Machine.lt_of_frame hcallback
      rw [Machine.frame_of_get hget, if_neg (Nat.ne_of_lt hd)]
      exact hcallback
    have hguarded := h.guarded (h.born_of_get hget)
    exact ⟨hguarded.holds t d _ hframe rfl, hguarded.fits t d _ hframe⟩
  have hget := ha.calls hget rfl
  obtain ⟨choice, hmove, rfl⟩ := ha.step
  have hstep : OncePhase.fast.step t o (r.state a).store =
      .next (r.state a).store (.locking .entry) := by
    refine if_neg ?_
    rw [← Store.completed, (hinside hget).2]
    simp
  have hnotice : ((r.state a).advance t choice).2 = .working := by
    rw [Machine.advance_once choice hget, hstep]
    rfl
  have hget := (next_of_step hmove hget hstep).2
  have hguarded := h.guarded (h.born_of_get hget)
  have hholder := (hinside hget).1
  have hat : r.At l t (.locking .entry none) True (a + 1) := by
    refine ⟨hguarded.part_head hget, ?_, iff_true_intro (holder_iff_has.1 hholder)⟩
    intro hnone
    simp [Store.holder, hnone] at hholder
  obtain ⟨rfl, rfl⟩ := hat.relock_refused b c _ _ hb hc
  obtain ⟨choice, hmove, hworking⟩ := hb.step
  obtain ⟨p, hget, hbody⟩ := calls_of_working hmove (hb.calls hget rfl) hworking
  obtain ⟨choice, hmove, hpanicked⟩ := hc.step
  have hget := calls_of_panicked hmove (hc.calls hget hbody) hpanicked
  refine ⟨hnotice, rfl, ⟨c, rfl, rfl⟩, hget, ?_⟩
  have hframe : (r.state (c + 1)).frame t d = some (.once o .callback) := by
    rw [Machine.frame, hget]
    exact hcallback
  have hn := h.born (Machine.mem_of_frame hframe) List.mem_cons_self
  exact (h.guarded hn).fits t d _ hframe

/-! ### Callers of a gate that is open and free

That a failed callback leaves the gate usable is more than that its flag is down: the next caller
comes through to its callback, if it need not wait for another one. -/

end Run

/-- The steps that lie between a caller's phase and the start of its callback, if it need not wait
and finds the gate open. -/
def OncePhase.ahead : OncePhase → Option Nat
  | fast => some 5
  | locking .entry => some 4
  | locking (.check _) => some 3
  | locking (.take _) => some 2
  | locking (.claim _) => some 1
  | recheck => some 0
  | _ => none

namespace Run

variable {r : Run} {start i j n : Nat} {choice : Choice} {outer : List Call} {p : OncePhase}

/-- Thread `t` is in phase `p` of a call on gate `o`, which is open, and nobody else is ahead. -/
structure Ready (r : Run) (o : OnceRef) (l : LockRef) (t : Tid) (outer : List Call) (p : OncePhase)
    (i : Nat) : Prop where
  calls : (r.state i).calls.get t = .once o p :: outer
  opened : (r.state i).store.completed o = false
  initialized : (r.state i).store.lock l ≠ none
  free : p.isTenant = false → (r.state i).store.holder l = none

namespace Ready

/-- The flag does not change meanwhile. -/
theorem completed_succ (h : r.Ready o l t outer p i) (hgate : r.Gate o l start)
    (hp : p ≠ .complete) : (r.state (i + 1)).store.completed o = false := by
  have hi := hgate.born_of_get h.calls
  rcases hgate.completed_succ hi with hsame | ⟨u, choice, outer', -, hget⟩
  · exact hsame.trans h.opened
  · have hguarded := hgate.guarded hi
    have hholder := hguarded.holds u _ _ (Machine.frame_head hget) rfl
    cases htenant : p.isTenant with
    | false => cases (h.free htenant).symm.trans hholder
    | true =>
      obtain rfl : t = u := Option.some.inj
        ((hguarded.holds t _ p (Machine.frame_head h.calls) htenant).symm.trans hholder)
      cases h.calls.symm.trans hget
      exact absurd rfl hp

/-- The gate's mutex stays initialized meanwhile. -/
theorem lock_succ (h : r.Ready o l t outer p i) (hgate : r.Gate o l start) :
    (r.state (i + 1)).store.lock l ≠ none := by
  have hkeeps := hgate.guarded (hgate.born_of_get h.calls)
  exact lock_stays_of_mem (h.calls ▸ List.mem_cons_self) (by simp [Call.objects, hkeeps.gate])
    h.initialized

/-- Nothing changes for the caller until its next step, if no other thread takes the mutex. -/
theorem stays (h : r.Ready o l t outer p i) (hgate : r.Gate o l start) {notice : Notice}
    (hnext : r.NextStep t i n notice) (hp : p ≠ .complete) (hbody : (Call.once o p).atBody = false)
    (halone : ∀ k u, i ≤ k → k < n → r.Takes l u k → u = t) : r.Ready o l t outer p n := by
  have hquiet := hnext.quiet
  have hle := hnext.le
  clear hnext
  induction hle with
  | refl => exact h
  | @step n hin ih =>
    have hready := ih (fun k u hik hkn => halone k u hik (Nat.lt_succ_of_lt hkn))
      fun k hik hkn => hquiet k hik (Nat.lt_succ_of_lt hkn)
    have hmove := hquiet n hin (Nat.lt_succ_self n)
    refine ⟨(r.state_change n).calls_kept (r.state_sound n) hready.calls hbody hmove,
      hready.completed_succ hgate hp, hready.lock_succ hgate, ?_⟩
    intro htenant
    rcases holder_succ (hready.lock_succ hgate) with hsame | ⟨u, htakes | hreleases⟩ | ⟨-, hfree⟩
    · exact hsame.trans (hready.free htenant)
    · obtain rfl := halone n u hin (Nat.lt_succ_self n) htakes
      obtain ⟨choice, heq, -⟩ := htakes
      exact absurd heq (hmove choice)
    · exact hreleases.does.2
    · exact hfree

/-- A caller that goes on is ready in its next phase, with the mutex or before a free one. -/
theorem goes (h : r.Ready o l t outer p i) (hgate : r.Gate o l start)
    (hmove : r.move i = .advance t choice) (hp : p ≠ .complete) {s' : Store} {p' : OncePhase}
    (hstep : p.step t o (r.state i).store = .next s' p') (hbody : (Call.once o p').atBody = false)
    (hholder : p'.isTenant = false → s'.holder l = none) :
    ((r.state i).advance t choice).2 = .working ∧ r.Ready o l t outer p' (i + 1) := by
  obtain ⟨hstore, hcalls⟩ := next_of_step hmove h.calls hstep
  refine ⟨?_, hcalls, h.completed_succ hgate hp, h.lock_succ hgate,
    fun htenant => hstore ▸ hholder htenant⟩
  rw [Machine.advance_once choice h.calls, hstep]
  simp [hbody]

/-- A caller locks a free mutex without a wait and without a failing check. -/
theorem locks {q : LockPhase} (h : r.Ready o l t outer (.locking q) i) (hgate : r.Gate o l start)
    {a : Nat} (ha : (OncePhase.locking q).ahead = some a) :
    ∃ s' p' a', (OncePhase.locking q).step t o (r.state i).store = .next s' p' ∧
      (Call.once o p').atBody = false ∧ a = a' + 1 ∧ p'.ahead = some a' ∧
      (p'.isTenant = false → s'.holder l = none) := by
  have hguarded := hgate.guarded (hgate.born_of_get h.calls)
  obtain ⟨k, hk⟩ := Option.ne_none_iff_exists'.1 h.initialized
  have hfree (htenant : (OncePhase.locking q).isTenant = false) : k.holder = none :=
    (Store.holder_of_lock hk).symm.trans (h.free htenant)
  cases q with
  | entry =>
    cases ha
    refine ⟨((r.state i).store.currentId t).1,
      .locking (.check ((r.state i).store.currentId t).2), _, ?_, rfl, rfl, rfl, ?_⟩
    · simp [OncePhase.step, LockPhase.step, hguarded.gate, hk, Progress.within]
    · exact fun _ => h.free rfl
  | check me =>
    cases ha
    have hcheck : ((r.state i).part l t).check? = some me := by
      rw [hguarded.part_head h.calls]
      rfl
    obtain ⟨-, hme, -⟩ := check_iff hk hcheck
    -- the owner word of a free mutex names nobody, so the check finds no relock
    have howner : k.owner ≠ me := by
      rw [(r.state_holds l i).owner_of_free hk (hfree rfl)]
      exact Ne.symm hme
    refine ⟨(r.state i).store, .locking (.take me), _, ?_, rfl, rfl, rfl, fun _ => h.free rfl⟩
    simp [OncePhase.step, LockPhase.step, Store.withLock, hguarded.gate, hk, howner,
      Progress.within]
  | take me =>
    cases ha
    refine ⟨(r.state i).store.setLock l (k.take t), .locking (.claim me), _, ?_, rfl, rfl, rfl, ?_⟩
    · simp [OncePhase.step, LockPhase.step, Store.withLock, hguarded.gate, hk, LockState.isLocked,
        hfree rfl, Progress.within]
    · intro htenant
      cases htenant
  | claim me =>
    cases ha
    refine ⟨(r.state i).store.setLock l (k.claim me), .recheck, _, ?_, rfl, rfl, rfl, ?_⟩
    · simp [OncePhase.step, LockPhase.step, Store.withLock, hguarded.gate, hk, Progress.within]
    · intro htenant
      cases htenant

/-- A step of a caller that need not wait takes it nearer to its callback. -/
theorem step (h : r.Ready o l t outer p i) (hgate : r.Gate o l start)
    (hmove : r.move i = .advance t choice) {a : Nat} (ha : p.ahead = some a) :
    (((r.state i).advance t choice).2 = .body ∧ a = 0 ∧
        (r.state (i + 1)).calls.get t = .once o .callback :: outer) ∨
      ((r.state i).advance t choice).2 = .working ∧ ∃ p' a', a = a' + 1 ∧ p'.ahead = some a' ∧
        r.Ready o l t outer p' (i + 1) := by
  have hopen : ¬ ((r.state i).store.onces.get o).completed = true := by
    rw [← Store.completed, h.opened]
    simp
  cases p with
  | fast =>
    cases ha
    have hstep : OncePhase.fast.step t o (r.state i).store =
        .next (r.state i).store (.locking .entry) := if_neg hopen
    obtain ⟨hnotice, hready⟩ := h.goes hgate hmove (by simp) hstep rfl fun _ => h.free rfl
    exact .inr ⟨hnotice, _, _, rfl, rfl, hready⟩
  | recheck =>
    cases ha
    have hstep : OncePhase.recheck.step t o (r.state i).store =
        .next (r.state i).store .callback := if_neg hopen
    refine .inl ⟨?_, rfl, (next_of_step hmove h.calls hstep).2⟩
    rw [Machine.advance_once choice h.calls, hstep]
    rfl
  | locking q =>
    obtain ⟨s', p', a', hstep, hbody, haa', ha', hholder⟩ := h.locks hgate ha
    obtain ⟨hnotice, hready⟩ := h.goes hgate hmove (by simp) hstep hbody hholder
    exact .inr ⟨hnotice, p', a', haa', ha', hready⟩
  | _ => cases ha

/-- A caller that need not wait starts its callback. -/
theorem reaches_callback (h : r.Ready o l t outer p i) (hgate : r.Gate o l start) {a : Nat}
    (ha : p.ahead = some a) {notices : List Notice} (hsteps : r.Steps t i notices n)
    (hlength : notices.length = a + 1)
    (halone : ∀ k u, i ≤ k → k < n → r.Takes l u k → u = t) :
    notices = List.replicate a .working ++ [.body] ∧
      (r.state n).calls.get t = .once o .callback :: outer := by
  -- the measure `ahead` counts the steps to the callback, and nobody else takes the mutex meanwhile
  induction hsteps generalizing p a with
  | nil => cases hlength
  | @cons i m n notice notices hnext hsteps ih =>
    have hmn : m + 1 ≤ n := hsteps.le
    have hbody : (Call.once o p).atBody = false := by
      cases p <;> first | rfl | cases ha
    have hp : p ≠ .complete := by
      rintro rfl
      cases ha
    have hready := h.stays hgate hnext hp hbody fun k u hik hkm =>
      halone k u hik (by omega)
    obtain ⟨choice, hmove, rfl⟩ := hnext.step
    rcases hready.step hgate hmove ha with
      ⟨hnotice, rfl, hcalls⟩ | ⟨hnotice, p', a', rfl, ha', hready'⟩
    · obtain rfl : notices = [] := by simpa using hlength
      cases hsteps
      exact ⟨by rw [hnotice]; rfl, hcalls⟩
    · have hle := hnext.le
      obtain ⟨rfl, hcalls⟩ := ih hready' ha' (by simpa using hlength) fun k u hik hkn =>
        halone k u (by omega) hkn
      rw [hnotice, List.replicate_succ]
      exact ⟨rfl, hcalls⟩

end Ready

/-- While the gate is open and its mutex free, a caller starts its callback, if no other thread
takes the mutex meanwhile. -/
theorem Gate.retries (h : r.Gate o l start) {notices : List Notice}
    (hbegin : r.move j = .begin t (.passing o)) (hfree : (r.state j).store.lock l = some .free)
    (hopen : (r.state j).store.completed o = false) (hsteps : r.Steps t (j + 1) notices n)
    (hlength : notices.length = 6) (halone : ∀ k u, j < k → k < n → r.Takes l u k → u = t) :
    notices = List.replicate 5 .working ++ [.body] ∧
      (r.state n).call? t = some (.once o .callback) := by
  have hready : r.Ready o l t ((r.state j).calls.get t) .fast (j + 1) := by
    have hstate : r.state (j + 1) = (r.state j).begin t (.passing o) := by
      rw [state_succ, hbegin]
      rfl
    refine ⟨?_, ?_, ?_, fun _ => ?_⟩ <;> rw [hstate]
    · exact Table.get_set_self _ _ _
    · exact hopen
    · simp [Machine.begin, hfree]
    · exact Store.holder_of_lock hfree
  obtain ⟨hnotices, hcalls⟩ := hready.reaches_callback h rfl hsteps hlength fun k u hjk =>
    halone k u hjk
  exact ⟨hnotices, Machine.call?_of_get hcalls⟩

/-! ### What callers can rely on

The fields of `OnceOnly`, each of which has been proved above. -/

end Run

/-- What comes of a call on a gate when its own callback has failed or panicked. -/
def BodyEnd.notice : BodyEnd → Notice
  | returned answer => .replied (.answer answer)
  | panicked why => .panicked why

namespace Run

variable {r : Run} {start i j n : Nat} {e : BodyEnd}

/-- A callback that does not succeed leaves the gate open and its mutex free, when its call is over
four steps later. -/
theorem Gate.reopens (h : r.Gate o l start) (hends : r.Ends o t e i) (he : e ≠ .returned .yes)
    {notices : List Notice} (hsteps : r.Steps t (i + 1) notices n) (hlength : notices.length = 4) :
    notices = [.working, .working, .working, e.notice] ∧
      (r.state n).store.lock l = some .free ∧ (r.state n).store.completed o = false := by
  obtain ⟨outer, -, hget⟩ := hends.resumed
  rcases e with ⟨_ | error⟩ | why
  · exact absurd rfl he
  · obtain ⟨rfl, -, hfree, hopen⟩ := h.leaves hget hsteps hlength
    exact ⟨rfl, hfree, hopen⟩
  · obtain ⟨rfl, -, hfree, hopen⟩ := h.leaves hget hsteps hlength
    exact ⟨rfl, hfree, hopen⟩

/-- What is so of gate `o` with mutex `l`, created in move `start`, all the time. -/
structure OnceOnly (r : Run) (o : OnceRef) (l : LockRef) (start : Nat) : Prop where
  /-- One callback at most succeeds. -/
  once : ∀ t u i j, r.Succeeds o t i → r.Succeeds o u j → i = j
  /-- No two callbacks run at a time, be it of one thread. -/
  alone : ∀ i t u d d', (r.state i).frame t d = some (.once o .callback) →
    (r.state i).frame u d' = some (.once o .callback) → t = u ∧ d = d'
  /-- No callback starts once one has succeeded. -/
  closed : ∀ t u i j, r.Starts o t i → r.Succeeds o u j → i < j
  /-- A call passes exactly if its own callback or another one has succeeded before. -/
  passes : ∀ t j i answer, r.Answers o t j i answer →
    (answer = .yes ↔ r.OwnEnds o t j i (.returned .yes) ∨ ∃ u k, k < i ∧ r.Succeeds o u k)
  /-- It fails with an error exactly if its own callback has failed with that error. -/
  fails : ∀ t j i answer error, r.Answers o t j i answer →
    (answer = .no error ↔ r.OwnEnds o t j i (.returned (.no error)))
  /-- The flag is down at first. -/
  opened : (r.state (start + 1)).store.completed o = false
  /-- It is raised in the first step after the callback that succeeds, and in no other. -/
  raised : ∀ i, start < i → ((r.state i).store.completed o = true ↔
    ∃ t j k notice, r.Succeeds o t j ∧ r.NextStep t (j + 1) k notice ∧ k < i)
  /-- It stays up. -/
  stays : ∀ i n, start < i → i ≤ n → (r.state i).store.completed o = true →
    (r.state n).store.completed o = true
  /-- A callback that fails or panics leaves the mutex free and the flag down. -/
  reopens : ∀ t e i notices n, r.Ends o t e i → e ≠ .returned .yes →
    r.Steps t (i + 1) notices n → notices.length = 4 →
    notices = [.working, .working, .working, e.notice] ∧
      (r.state n).store.lock l = some .free ∧ (r.state n).store.completed o = false
  /-- While these are so, a caller runs its callback, unless another one takes the mutex first. -/
  retries : ∀ t j notices n, r.move j = .begin t (.passing o) →
    (r.state j).store.lock l = some .free → (r.state j).store.completed o = false →
    r.Steps t (j + 1) notices n → notices.length = 6 →
    (∀ k u, j < k → k < n → r.Takes l u k → u = t) →
    notices = List.replicate 5 .working ++ [.body] ∧
      (r.state n).call? t = some (.once o .callback)
  /-- A call from inside a callback panics, without running its own callback, and without
  completing the gate. -/
  reentrant : ∀ t j d x y z n, r.move j = .begin t (.passing o) →
    (r.state j).frame t d = some (.once o .callback) → r.Steps t (j + 1) [x, y, z] n →
    x = .working ∧ y = .working ∧
      (∃ k, n = k + 1 ∧
        z = .panicked (.violation (.relocked ((r.state k).store.ids.own.get t)))) ∧
      (r.state n).calls.get t = (r.state j).calls.get t ∧ (r.state n).store.completed o = false

/-- In every run, one callback of a gate at most succeeds, whoever calls it and whatever the
callbacks do. -/
theorem once_only (h : r.Gate o l start) : r.OnceOnly o l start where
  once _ _ _ _ := h.succeeds_unique
  alone _ _ _ _ _ := h.callbacks_alone
  closed _ _ _ _ := h.starts_before
  passes t j i answer hanswers := by
    rw [(h.answers hanswers).1]
    constructor
    · exact .inr
    · rintro (⟨k, -, hk, hends, -⟩ | hsucceeds)
      · exact ⟨t, k, hk, hends⟩
      · exact hsucceeds
  fails _ _ _ _ error hanswers := (h.answers hanswers).2 error
  opened := h.opened.1
  raised _ := h.completed_iff
  stays _ _ := h.completed_mono
  reopens _ _ _ _ _ hends he hsteps hlength := h.reopens hends he hsteps hlength
  retries _ _ _ _ hbegin hfree hopen hsteps hlength halone :=
    h.retries hbegin hfree hopen hsteps hlength halone
  reentrant _ _ _ _ _ _ _ hbegin hcallback hsteps := h.reentrant hbegin hcallback hsteps

/-- A first callback fails, a second one succeeds. -/
def retrying : Run :=
  ofList
    ([.create .once, .begin 0 (.passing 1)] ++ steps 0 6 ++ [.endBody 0 (.returned (.no "busy"))] ++
      steps 0 4 ++ [.begin 0 (.passing 1)] ++ steps 0 6 ++ [.endBody 0 (.returned .yes)] ++
      steps 0 5) (by decide +kernel)

/-- The second callback is the only one that succeeds. -/
theorem once_only_retrying :
    retrying.Gate 1 0 0 ∧ retrying.OnceOnly 1 0 0 ∧ retrying.Succeeds 1 0 20 ∧
      ∀ i, retrying.Succeeds 1 0 i → i = 20 := by
  have hgate : retrying.Gate 1 0 0 :=
    ⟨rfl, rfl, rfl, along_extend (fun _ => rfl) (by decide +kernel)⟩
  have hsucceeds : retrying.Succeeds 1 0 20 := ⟨rfl, by decide +kernel⟩
  exact ⟨hgate, once_only hgate, hsucceeds,
    fun i hi => (once_only hgate).once 0 0 i 20 hi hsucceeds⟩

end Run

end Interlock
