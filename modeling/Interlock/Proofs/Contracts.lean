import Interlock.Proofs.Condition.Loop

/-!
# What is checked, and what is not

Every call that breaks a contract is rejected before it has done anything. A loop around waits is
the one call that hands out a promise which it does not check: its condition is to be evaluated with
the mutex held, but only a wait looks whether the caller holds it, and a loop comes to wait only
after its condition has held. So a loop that is begun without the mutex, or with a condition
variable that was never initialized, runs its condition all the same; it ends as if nothing were
wrong if the condition does not hold, or if its time is up by then, and it is rejected at its first
wait otherwise.

  * `WaitWhilePhase.storeFrom_eq`: outside its waits a loop changes nothing;
  * `Run.InLoop.not_waiting`: no wait comes before the first evaluation;
  * `Run.Unchecked`, `Run.unchecked`: what becomes of a loop whatever the state of its mutex and its
    condition variable is;
  * `Run.broken_contracts`: what breaks a contract is rejected, and what a loop does unchecked;
    `Run.loop_unchecked`: a loop that runs its condition without the mutex.

The facts about loops are read off the evaluation that has just ended (`Run.InLoop.left`); no
induction is needed for them.
-/

namespace Interlock

/-! ## Loops outside their waits

A loop has few steps of its own: the first one, which looks at the clock, and the one after each
evaluation. None of them looks at the mutex or at the condition variable. -/

section

variable {t : Tid} {c : CondRef} {l : LockRef} {timeout : Option Duration} {s s' : Store}
  {p : WaitWhilePhase}

theorem WaitWhilePhase.storeFrom_eq (h : ∀ start rest q, p ≠ .waiting start rest q) :
    (p.step t c l timeout s).storeFrom s = s := by
  cases p with
  | measure start =>
    simp only [step]
    (repeat' split) <;> rfl
  | waiting start rest q => exact absurd rfl (h start rest q)
  | begin | test | met | broken => rfl

/-- After an evaluation that held, a loop is over or comes to wait. -/
theorem WaitWhilePhase.step_measure (t : Tid) (c : CondRef) (l : LockRef)
    (timeout : Option Duration) (s : Store) (start : Instant) :
    (measure start).step t c l timeout s = .done s false ∨
      ∃ rest, (measure start).step t c l timeout s = .next s (waiting start rest .entry) := by
  cases timeout with
  | none => exact .inr ⟨none, rfl⟩
  | some limit =>
    cases hrest : limit.sub? (s.clock.since start) with
    | none => exact .inl (step_over hrest)
    | some rest => exact .inr ⟨some rest, step_left hrest⟩

/-- A loop panics as its condition has, or in a wait. -/
theorem WaitWhilePhase.of_fault {why : Panic} (h : p.step t c l timeout s = .fault s' why) :
    p = broken why ∨ ∃ start rest q, p = waiting start rest q := by
  cases p with
  | waiting start rest q => exact .inr ⟨start, rest, q, rfl⟩
  | broken why' =>
    cases h
    exact .inl rfl
  | measure start =>
    obtain hstep | ⟨rest, hstep⟩ := step_measure t c l timeout s start <;>
      cases hstep.symm.trans h
  | begin | test | met => cases h

end

namespace Run

variable {r : Run} {c : CondRef} {l : LockRef} {timeout : Option Duration} {t : Tid}
  {b i j k m n : Nat} {p : WaitWhilePhase} {start : Instant} {choice : Choice} {notice : Notice}

/-- What a loop's thread is told of a step is what the phase of the loop makes of it. -/
theorem InLoop.notice_eq (h : r.InLoop c l timeout t b i p)
    (hbody : (Call.waitWhile c l timeout p).atBody = false) (choice : Choice) :
    ((r.state i).advance t choice).2 = Progress.notice
      (Call.lift (.waitWhile c l timeout) .flag (p.step t c l timeout (r.state i).store)) := by
  obtain ⟨outer, hget, -⟩ := h.get hbody
  exact Machine.advance_notice (Machine.call?_of_get hget)

/-- A step of a loop outside its waits changes nothing. -/
theorem InLoop.store_succ (h : r.InLoop c l timeout t b i p)
    (hbody : (Call.waitWhile c l timeout p).atBody = false)
    (hwait : ∀ start rest q, p ≠ .waiting start rest q) (hmove : r.move i = .advance t choice) :
    (r.state (i + 1)).store = (r.state i).store := by
  obtain ⟨outer, hget, -⟩ := h.get hbody
  have hstep : (p.step t c l timeout (r.state i).store).storeFrom (r.state i).store =
      (r.state i).store := WaitWhilePhase.storeFrom_eq hwait
  rw [(performs_of_move hmove (Machine.call?_of_get hget)).2, Call.step, Call.lift]
  cases hp : p.step t c l timeout (r.state i).store <;> rw [hp] at hstep <;> exact hstep

/-- The step after an evaluation that returns changes nothing. -/
theorem EvaluatesTo.store_succ {holds : Bool} (h : r.EvaluatesTo c l timeout t b n holds)
    (hnext : r.NextStep t (n + 1) i notice) : (r.state (i + 1)).store = (r.state i).store := by
  obtain ⟨start, hloop⟩ := h.until hnext
  obtain ⟨choice, hmove, -⟩ := hnext.step
  refine hloop.store_succ ?_ ?_ hmove <;> cases holds <;> simp [Call.atBody]

/-- No wait comes before the first evaluation has ended, nor before the thread has taken the step
after it. -/
theorem InLoop.not_waiting {rest : Option Duration} {q : WaitPhase}
    (h : r.InLoop c l timeout t b k (.waiting start rest q))
    (hfirst : ∀ n' < n, ∀ holds, ¬ r.EvaluatesTo c l timeout t b n' holds)
    (hnext : r.NextStep t (n + 1) i notice) : i < k := by
  -- what lets a loop wait is a step of its own after an evaluation
  obtain ⟨m, hmk, hmeasure, ⟨choice, hmove⟩, -, -⟩ := h.lent
  obtain ⟨n', hnm, hevaluates, -⟩ := hmeasure.evaluated rfl
  have hle : n ≤ n' := Nat.not_lt.1 fun hlt => hfirst n' hlt true hevaluates
  exact Nat.lt_of_not_le fun hki =>
    hnext.quiet m (Nat.lt_of_le_of_lt hle hnm) (Nat.lt_of_lt_of_le hmk hki) choice hmove

/-! ## A loop in whatever state its mutex is -/

/-- What becomes of a loop around waits that thread `t` begins in move `b`, whoever holds its mutex,
and whether or not its condition variable has been initialized. -/
structure Unchecked (r : Run) (c : CondRef) (l : LockRef) (timeout : Option Duration) (t : Tid)
    (b : Nat) : Prop where
  /-- The condition is evaluated at once. -/
  opens : ∀ j first, r.NextStep t (b + 1) j first →
    first = .body ∧ (r.state (j + 1)).store = (r.state j).store
  /-- If it does not hold, the loop is over, without a panic and with nothing changed. -/
  met : ∀ n i notice, r.EvaluatesTo c l timeout t b n false → r.NextStep t (n + 1) i notice →
    notice = .replied (.flag true) ∧ r.EndsLoop c l timeout t b i notice ∧
      (r.state (i + 1)).store = (r.state i).store
  /-- So it is if the condition holds and more than the limit has passed. -/
  late : ∀ limit, timeout = some limit → ∀ j first, r.NextStep t (b + 1) j first →
    ∀ n i notice, r.EvaluatesTo c l timeout t b n true → r.NextStep t (n + 1) i notice →
      limit.nanos + (r.state j).store.clock.nanos < (r.state i).store.clock.nanos →
      notice = .replied (.flag false) ∧ r.EndsLoop c l timeout t b i notice ∧
        (r.state (i + 1)).store = (r.state i).store
  /-- If this is so at the first evaluation, the loop has never come to wait. -/
  straight : ∀ n i notice, (∀ n' < n, ∀ holds, ¬ r.EvaluatesTo c l timeout t b n' holds) →
    r.NextStep t (n + 1) i notice →
    ∀ k ≤ i, ∀ start rest q, ¬ r.InLoop c l timeout t b k (.waiting start rest q)
  /-- Otherwise it comes to wait, with nothing changed yet, -/
  waits : ∀ n i notice, r.EvaluatesTo c l timeout t b n true → r.NextStep t (n + 1) i notice →
    (r.state (i + 1)).store = (r.state i).store ∧ (notice = .replied (.flag false) ∨
      notice = .working ∧ ∃ start rest,
        r.InLoop c l timeout t b (i + 1) (.waiting start rest .entry))
  /-- and it is the wait that breaks a contract. -/
  caught : ∀ k m start rest notice, r.InLoop c l timeout t b k (.waiting start rest .entry) →
    r.NextStep t k m notice →
    ((r.state m).store.conds.get c = .raw →
      r.Breaks t m fun _ => .conditionUninitialized .waitOn) ∧
    (((r.state m).store.conds.get c).isInitialized = true → ¬ r.Has l t m →
      r.Breaks t m fun _ => .waitWithoutMutex)
  /-- A panic of the condition goes on as it was, with nothing changed. -/
  broken : ∀ n i notice why, r.Evaluates c l timeout t b n (.panicked why) →
    r.NextStep t (n + 1) i notice →
    notice = .panicked why ∧ (r.state (i + 1)).store = (r.state i).store
  /-- Outside its waits a loop has no other panic. -/
  panics : ∀ i why, r.EndsLoop c l timeout t b i (.panicked why) →
    (∃ n, r.Evaluates c l timeout t b n (.panicked why) ∧
      r.NextStep t (n + 1) i (.panicked why)) ∨
    ∃ start rest q, r.InLoop c l timeout t b i (.waiting start rest q)

/-- Both are what the thread is told in one move. -/
theorem EndsLoop.notice_eq {x : Notice} (h : r.EndsLoop c l timeout t b i x)
    (hnext : r.NextStep t k i notice) : notice = x := by
  obtain ⟨choice, hmove, rfl⟩ := h.step
  obtain ⟨choice', hmove', rfl⟩ := hnext.step
  cases hmove.symm.trans hmove'
  rfl

theorem Evaluates.until_broken {why : Panic} (h : r.Evaluates c l timeout t b n (.panicked why))
    (hnext : r.NextStep t (n + 1) i notice) : r.InLoop c l timeout t b i (.broken why) := by
  obtain ⟨start, -, hresumed⟩ := h.resumed
  exact hresumed.until rfl hnext

/-- A loop that panics outside its waits does so right after its condition has. -/
theorem EndsLoop.panicked {why : Panic} (h : r.EndsLoop c l timeout t b i (.panicked why)) :
    (∃ n, r.Evaluates c l timeout t b n (.panicked why) ∧
      r.NextStep t (n + 1) i (.panicked why)) ∨
    ∃ start rest q, r.InLoop c l timeout t b i (.waiting start rest q) := by
  have hstep := h.step
  obtain ⟨⟨p, hloop⟩, hdepth, choice, hmove, hnotice⟩ := h
  obtain ⟨outer, hget, -⟩ := hloop.get_of_depth hdepth
  rw [Machine.advance_notice (Machine.call?_of_get hget), Call.step,
    Progress.notice_lift_panicked] at hnotice
  obtain ⟨s', hfault⟩ := hnotice
  obtain rfl | ⟨start, rest, q, rfl⟩ := WaitWhilePhase.of_fault hfault
  · obtain ⟨n, hni, start, e, hevaluates, heq, hquiet⟩ := hloop.left rfl
    obtain rfl : e = .panicked why := by
      rcases e with ⟨_ | _⟩ | _ <;> cases heq
      rfl
    exact .inl ⟨n, hevaluates, hni, hstep, hquiet⟩
  · exact .inr ⟨start, rest, q, hloop⟩

/-- Nothing is assumed of the mutex or of the condition variable. -/
theorem unchecked (hbegin : r.move b = .begin t (.waitingWhile c l timeout)) :
    r.Unchecked c l timeout t b where
  opens := by
    intro j first hfirst
    obtain ⟨choice, hmove, -⟩ := hfirst.step
    exact ⟨(loop_opens hbegin hfirst).1,
      ((InLoop.begins hbegin).until rfl hfirst).store_succ rfl (by simp) hmove⟩
  met := by
    intro n i notice hevaluates hnext
    have hends := hevaluates.ends hnext
    obtain rfl := hends.notice_eq hnext
    exact ⟨rfl, hends, hevaluates.store_succ hnext⟩
  late := by
    rintro limit rfl j first hfirst n i notice hevaluates hnext hlt
    have hends := (hevaluates.measured hnext hfirst).2.1.2 hlt
    obtain rfl := hends.notice_eq hnext
    exact ⟨rfl, hends, hevaluates.store_succ hnext⟩
  straight := fun n i notice hfirst hnext k hki start rest q hwaits =>
    absurd hki (Nat.not_le.2 (hwaits.not_waiting hfirst hnext))
  waits := by
    intro n i notice hevaluates hnext
    refine ⟨hevaluates.store_succ hnext, ?_⟩
    obtain ⟨start, hloop⟩ := hevaluates.until hnext
    obtain ⟨choice, hmove, rfl⟩ := hnext.step
    rw [hloop.notice_eq rfl]
    -- either the limit has passed or a wait begins
    obtain hstep | ⟨rest, hstep⟩ :=
      WaitWhilePhase.step_measure t c l timeout (r.state i).store start
    · exact .inl (by rw [if_pos rfl, hstep]; rfl)
    · refine .inr ⟨by rw [if_pos rfl, hstep]; rfl, start, rest, ?_⟩
      exact hloop.goes_of_next hmove rfl hstep
  caught := by
    intro k m start rest notice hloop hnext
    obtain ⟨outer, hget, -⟩ := (hloop.until rfl hnext).get rfl
    have hcall := Machine.call?_of_get hget
    exact ⟨fun hraw => .waitRaw (.loop timeout start) hcall hraw,
      fun hinit hnot => .waitForeign (.loop timeout start) hcall hinit hnot⟩
  broken := by
    intro n i notice why hevaluates hnext
    have hloop := hevaluates.until_broken hnext
    obtain ⟨choice, hmove, rfl⟩ := hnext.step
    exact ⟨hloop.notice_eq rfl choice, hloop.store_succ rfl (by simp) hmove⟩
  panics := fun _ _ => EndsLoop.panicked

/-! ## Every contract -/

/-- A call that breaks a contract logs one violation and panics with it, and changes nothing else,
where nobody begins a call on a thread object that another call is on. Of a loop around waits it is
its waits that can break a contract: before the first of them it runs its condition, and if that
does not hold, or holds when the time is up, the loop ends without a panic and without a check. -/
theorem broken_contracts (hborrows : r.Borrows) :
    (∀ t i choice why, r.move i = .advance t choice → r.Breaks t i why → r.Rejects t why i) ∧
    (∀ t i c l timeout, (r.state i).call? t = some (.waitingWhile c l timeout) → ∀ choice,
      ((r.state i).advance t choice).2 = .body ∧
        ((r.state i).advance t choice).1.store = (r.state i).store) ∧
    ∀ t b c l timeout, r.move b = .begin t (.waitingWhile c l timeout) →
      r.Unchecked c l timeout t b :=
  ⟨fun _ _ _ _ hmove h => h.rejects hborrows hmove, fun _ _ _ _ _ => loop_begins,
    fun _ _ _ _ _ => unchecked⟩

/-- Thread 0 waits without the mutex, and then joins a thread object that was never started. -/
def refused : Run :=
  ofList
    ([.create (.mutex true), .create .condition, .create (.thread none none),
      .begin 0 (.initCond 1 .native)] ++ steps 0 1 ++ [.begin 0 (.waiting 1 0 none)] ++ steps 0 3 ++
      [.begin 0 (.joining 2)] ++ steps 0 1) (by decide +kernel)

theorem not_has_refused : ¬ refused.Has 0 0 6 := by
  have hholder : (refused.state 6).store.holder 0 = none := by decide +kernel
  intro hhas
  cases hholder.symm.trans (holder_iff_has.2 hhas)

/-- Thread 0 begins a loop around waits without the mutex, and its condition does not hold. -/
def strayed : Run :=
  ofList
    ([.create (.mutex true), .create .condition, .begin 0 (.initCond 1 .native)] ++ steps 0 1 ++
      [.begin 0 (.waitingWhile 1 0 none)] ++ steps 0 1 ++ [.endBody 0 (.returned (.no ""))] ++
      steps 0 1) (by decide +kernel)

/-- Both calls of the first run are rejected, and there are two records in the log. The loop of the
second one ends without a panic. -/
theorem broken_contracts_refused :
    refused.Borrows ∧ refused.Rejects 0 (fun _ => .waitWithoutMutex) 6 ∧
      refused.Rejects 0 (fun _ => .notRunning .join .notStarted) 10 ∧
      (refused.state 11).store.log =
        [.violation (.notRunning .join .notStarted), .violation .waitWithoutMutex] ∧
      strayed.Borrows ∧ strayed.EvaluatesTo 1 0 none 0 4 6 false ∧
      strayed.EndsLoop 1 0 none 0 4 7 (.replied (.flag true)) := by
  have hborrows : refused.Borrows := borrows_ofList _ (by decide +kernel)
  have hwait : (refused.state 6).call? 0 = some (.wait 1 0 none .entry) := by decide +kernel
  have hinit : ((refused.state 6).store.conds.get 1).isInitialized = true := by decide +kernel
  have hjoin : (refused.state 10).call? 0 = some (.join 2 .entry) := by decide +kernel
  have hobject : (refused.state 10).store.threads.get 2 = .new none none := by decide +kernel
  have hborrows' : strayed.Borrows := borrows_ofList _ (by decide +kernel)
  have hloop := (broken_contracts hborrows').2.2 0 4 1 0 none rfl
  have hopens : strayed.NextStep 0 5 5 .body :=
    ⟨Nat.le_refl _, ⟨⟨0, false⟩, rfl, by decide +kernel⟩, fun k hk hlt => by omega⟩
  have hno : strayed.EvaluatesTo 1 0 none 0 4 6 false :=
    ⟨.no "", ⟨⟨_, (loop_opens rfl hopens).2⟩, rfl, by decide +kernel⟩, rfl⟩
  have hlast : strayed.NextStep 0 7 7 (.replied (.flag true)) :=
    ⟨Nat.le_refl _, ⟨⟨0, false⟩, rfl, by decide +kernel⟩, fun k hk hlt => by omega⟩
  refine ⟨hborrows, ?_, ?_, by decide +kernel, hborrows', hno, (hloop.met 6 7 _ hno hlast).2.1⟩
  · exact (broken_contracts hborrows).1 0 6 ⟨0, false⟩ _ rfl
      (.waitForeign .plain hwait hinit not_has_refused)
  · have hbreaks := Breaks.join hjoin (by rw [hobject]; rfl)
    rw [hobject] at hbreaks
    exact (broken_contracts hborrows).1 0 10 ⟨0, false⟩ _ rfl hbreaks

/-- It is not rejected: its condition runs, the loop ends without a panic, and nothing is logged. -/
theorem loop_unchecked :
    (strayed.state 5).call? 0 = some (.waitingWhile 1 0 none) ∧
      ((strayed.state 5).store.conds.get 1).isInitialized = true ∧ ¬ strayed.Has 0 0 5 ∧
      (¬ ∃ why, strayed.Rejects 0 why 5) ∧ ((strayed.state 5).advance 0 ⟨0, false⟩).2 = .body ∧
      ((strayed.state 7).advance 0 ⟨0, false⟩).2 = .replied (.flag true) ∧
      (strayed.state 8).store.log = [] := by
  have hholder : (strayed.state 5).store.holder 0 = none := by decide +kernel
  have hbody : ((strayed.state 5).advance 0 ⟨0, false⟩).2 = .body := by decide +kernel
  refine ⟨by decide +kernel, by decide +kernel, ?_, ?_, hbody, by decide +kernel, by decide +kernel⟩
  · intro hhas
    cases hholder.symm.trans (holder_iff_has.2 hhas)
  -- a rejected call does not come to run code of its client's
  · rintro ⟨why, hrejects⟩
    cases hrejects with
    | fails h => cases hbody.symm.trans (h ⟨0, false⟩).notice
    | works h => cases hbody.symm.trans (h ⟨0, false⟩).notice

end Run

end Interlock
