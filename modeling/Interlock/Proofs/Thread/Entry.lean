import Interlock.Proofs.Thread.Naming

/-!
# Threads from their entry to their end

A thread that a start has spawned first installs its identity, then runs the entry function, and
then ends. Each of these happens once.

  * `Machine.EndEvent`: what a move makes of the end of a thread. A thread in a call has not ended
    (`Run.state_lively`), and one that has ended goes on so (`Run.ending_stays`);
  * `Run.ReachesEntry`: a thread comes to its entry function, once (`Run.ReachesEntry.unique`);
  * `Run.Spawned`: a start has spawned its thread, which no other start does (`Run.Spawned.unique`),
    and which comes to its entry function before it ends (`Run.Spawned.reachesEntry`).
-/

namespace Interlock

namespace Machine

variable {m : Machine} {move : Move} {t u : Tid}

/-! ## How threads end

A thread of the operating system ends in a move of its own, with the way it ended; the library reads
that when it joins the thread. -/

/-- How thread `u` has ended, if it has. -/
def ending (m : Machine) (u : Tid) : Option Ending := (m.store.osThreads.get u).ending

/-- What a move makes of the end of thread `u`. -/
inductive EndEvent (m : Machine) (move : Move) (m' : Machine) (u : Tid) : Prop
  | kept (hsame : m'.ending u = m.ending u)
  | exits {e : Ending} (hmove : move = .exit u e) (hends : m'.ending u = some e)
  | new (hthread : u = m.store.nextThread) (hnone : m'.ending u = none)

/-- Every move does one of these to the end of a thread. -/
theorem endEvent (m : Machine) (move : Move) (u : Tid) : m.EndEvent move (m.apply move) u := by
  cases move with
  | exit t e =>
    by_cases hu : u = t
    · subst hu
      exact .exits rfl (congrArg OsThread.ending (Table.get_set_self ..))
    · exact .kept (congrArg OsThread.ending (Table.get_set_of_ne _ _ hu))
  | spawn creator =>
    rcases m.store.addOsThread_endings creator none u with hsame | ⟨hthread, hnone⟩
    · exact .kept hsame
    · exact .new hthread hnone
  | create c => exact .kept (by rw [ending, apply, (m.store.same_of_apply c).2, ending])
  | advance t choice =>
    have hcases : (m.advance t choice).1.ending u = m.ending u ∨
        u = m.store.nextThread ∧ (m.advance t choice).1.ending u = none :=
      advance_keeps (P := fun s => (s.osThreads.get u).ending = m.ending u ∨
        u = m.store.nextThread ∧ (s.osThreads.get u).ending = none) choice (.inl rfl)
        fun call _ => Progress.Keeps.imp call.step_frame fun _ hframe => hframe.endings u
    rcases hcases with hsame | ⟨hthread, hnone⟩
    · exact .kept hsame
    · exact .new hthread hnone
  | endBody t e => exact .kept (by rw [ending, apply, endBody_store, ending])
  | begin | tick => exact .kept rfl

/-- Threads that are not born yet have not ended, nor have those in a call. -/
structure Lively (m : Machine) : Prop where
  unborn : ∀ t, m.store.nextThread ≤ t → m.ending t = none
  calling : ∀ t, m.calls.get t ≠ [] → m.ending t = none

theorem ending_of_lives (h : m.lives t = true) : t < m.store.nextThread ∧ m.ending t = none := by
  simpa [lives, ending] using h

theorem lives_of_exit {e : Ending} (hallows : m.allows (.exit t e) = true) :
    t < m.store.nextThread ∧ m.ending t = none ∧ m.calls.get t = [] := by
  simp only [allows, Bool.and_eq_true, List.isEmpty_iff] at hallows
  exact ⟨(ending_of_lives hallows.1).1, (ending_of_lives hallows.1).2, hallows.2⟩

/-- Every move keeps it so that no thread in a call has ended. -/
theorem Lively.apply (h : m.Lively) (hallows : m.allows move = true) (hsound : m.Sound) :
    (m.apply move).Lively := by
  constructor
  case unborn =>
    intro t ht
    have hborn := Nat.le_trans (change_apply hallows).nextThread_le ht
    cases m.endEvent move t with
    | kept hsame => exact hsame.trans (h.unborn t hborn)
    | exits hmove =>
      subst hmove
      exact absurd (lives_of_exit hallows).1 (Nat.not_lt.2 hborn)
    | new _ hnone => exact hnone
  case calling =>
    intro t hcalls
    cases m.endEvent move t with
    | new _ hnone => exact hnone
    | exits hmove =>
      subst hmove
      exact absurd (lives_of_exit hallows).2.2 hcalls
    | kept hsame =>
      rw [hsame]
      -- a thread that has ended begins no call, and the calls that it was in before are over
      cases hsound.stacked hallows t with
      | same heq => exact h.calling t (heq ▸ hcalls)
      | begun _ _ hclient =>
        simp only [inClient, Bool.and_eq_true] at hclient
        exact (ending_of_lives hclient.1).2
      | resumed _ hget | next _ hget | last _ hget => exact h.calling t (by simp [hget])
      | born hthread => exact h.unborn t (Nat.le_of_eq hthread.symm)

end Machine

namespace Run

variable {r : Run} {i i' j k : Nat} {t u child : Tid} {o o' : ThreadRef} {id id' : ThreadId}
  {e e' : Ending}

theorem state_lively (r : Run) (i : Nat) : (r.state i).Lively := by
  induction i with
  | zero => exact ⟨fun _ _ => rfl, fun _ _ => rfl⟩
  | succ i ih => exact ih.apply (r.state_allows i) (r.state_sound i)

/-- A thread that has ended has done so in a move of its own. -/
theorem exists_exit (h : (r.state i).ending u = some e) : ∃ k < i, r.move k = .exit u e := by
  induction i with
  | zero => cases h
  | succ i ih =>
    cases (r.state i).endEvent (r.move i) u with
    | kept hsame =>
      obtain ⟨k, hk, hmove⟩ := ih (hsame.symm.trans h)
      exact ⟨k, Nat.lt_succ_of_lt hk, hmove⟩
    | exits hmove hends =>
      cases hends.symm.trans h
      exact ⟨i, Nat.lt_succ_self i, hmove⟩
    | new _ hnone => cases hnone.symm.trans h

/-- How a thread has ended does not change any more. -/
theorem ending_stays (h : (r.state i).ending u = some e) (hik : i ≤ k) :
    (r.state k).ending u = some e := by
  induction hik with
  | refl => exact h
  | @step k _ ih =>
    have hborn : u < (r.state k).store.nextThread := by
      apply Nat.lt_of_not_le
      intro hle
      cases ((r.state_lively k).unborn u hle).symm.trans ih
    cases (r.state k).endEvent (r.move k) u with
    | kept hsame => exact hsame.trans ih
    | exits hmove =>
      have hallows := r.state_allows k
      rw [hmove] at hallows
      cases (Machine.lives_of_exit hallows).2.1.symm.trans ih
    | new hthread => exact absurd hthread (Nat.ne_of_lt hborn)

theorem ending_of_exit (h : r.move k = .exit u e) : (r.state (k + 1)).ending u = some e := by
  rw [state_succ, h]
  exact congrArg OsThread.ending (Table.get_set_self ..)

/-- A thread ends once. -/
theorem exit_unique (h : r.move j = .exit u e) (h' : r.move k = .exit u e') : j = k := by
  have hlater {j k : Nat} {e e' : Ending} (h : r.move j = .exit u e) (h' : r.move k = .exit u e')
      (hjk : j < k) : False := by
    have hallows := r.state_allows k
    rw [h'] at hallows
    cases (Machine.lives_of_exit hallows).2.1.symm.trans (ending_stays (ending_of_exit h) hjk)
  exact Nat.le_antisymm (Nat.not_lt.1 (hlater h' h)) (Nat.not_lt.1 (hlater h h'))

/-! ## How threads begin

A thread that a start spawns is in a call from the first, the one that installs its identity. The
entry function is what it runs after that, code of a client's like any other. -/

/-- In move `i` thread `t` takes a step of its innermost call, and is told `notice`. -/
def Performs (r : Run) (t : Tid) (i : Nat) (call : Call) (notice : Notice) : Prop :=
  ∃ choice, r.move i = .advance t choice ∧ (r.state i).call? t = some call ∧
    ((r.state i).advance t choice).2 = notice

/-- In a move at most one step is performed. -/
theorem Performs.unique {call call' : Call} {notice notice' : Notice}
    (h : r.Performs t i call notice) (h' : r.Performs u i call' notice') :
    t = u ∧ call = call' ∧ notice = notice' := by
  obtain ⟨choice, hmove, hcall, rfl⟩ := h
  obtain ⟨choice', hmove', hcall', rfl⟩ := h'
  cases hmove.symm.trans hmove'
  cases hcall.symm.trans hcall'
  exact ⟨rfl, rfl, rfl⟩

/-- In move `k` thread `child` installs the identity it was given, and comes to its entry
function. -/
def ReachesEntry (r : Run) (child : Tid) (k : Nat) : Prop :=
  ∃ id, r.Performs child k (.install id) (.replied .nothing)

/-- A thread that is to install an identity comes to its entry function with its next step. -/
theorem reachesEntry_of_install {choice : Choice} (h : (r.state k).call? child = some (.install id))
    (hmove : r.move k = .advance child choice) : r.ReachesEntry child k :=
  ⟨id, choice, hmove, h, (Machine.install_step h ((r.state_named k).fresh child id h) choice).1⟩

/-- A thread has its identity from its entry on. -/
theorem ReachesEntry.own (h : r.ReachesEntry child k) (hki : k < i) :
    (r.state i).store.ids.own.get child ≠ .nobody := by
  obtain ⟨id, choice, hmove, hcall, -⟩ := h
  have hown := (Machine.install_step hcall ((r.state_named k).fresh child id hcall) choice).2
  have hid := ((r.state_identified k).token child id (by rw [Machine.see_of_call? hcall]; rfl)).1
  have hafter : (r.state (k + 1)).store.ids.own.get child = id := by
    rw [state_succ, hmove]
    exact hown
  rw [own_stable hki (hafter ▸ hid), hafter]
  exact hid

/-- A thread comes to its entry function once. -/
theorem ReachesEntry.unique (h : r.ReachesEntry child j) (h' : r.ReachesEntry child k) : j = k := by
  have hlater {j k : Nat} (h : r.ReachesEntry child j) (h' : r.ReachesEntry child k)
      (hjk : j < k) : False := by
    obtain ⟨id, _, _, hcall, _⟩ := h'
    exact h.own hjk ((r.state_named k).fresh child id hcall)
  exact Nat.le_antisymm (Nat.not_lt.1 (hlater h' h)) (Nat.not_lt.1 (hlater h h'))

/-- A thread that is to install an identity does so before anything else. -/
theorem entered_or_installing (h : (r.state j).call? child = some (.install id)) (hji : j ≤ i) :
    (r.state i).call? child = some (.install id) ∨ ∃ k < i, r.ReachesEntry child k := by
  induction hji with
  | refl => exact .inl h
  | @step i _ ih =>
    rcases ih with hcall | ⟨k, hk, hentry⟩
    · by_cases hmove : ∃ choice, r.move i = .advance child choice
      · obtain ⟨choice, hmove⟩ := hmove
        exact .inr ⟨i, Nat.lt_succ_self i, reachesEntry_of_install hcall hmove⟩
      · obtain ⟨outer, hget⟩ := List.head?_eq_some_iff.1 hcall
        exact .inl (Machine.call?_of_get ((r.state_change i).calls_kept (r.state_sound i) hget rfl
          fun choice heq => hmove ⟨choice, heq⟩))
    · exact .inr ⟨k, Nat.lt_succ_of_lt hk, hentry⟩

/-! ## The thread of a start

A start draws an identity, spawns the thread and records it, in three steps. The thread may run, and
may have ended, before the third. -/

/-- Thread `t`, which starts object `o`, has spawned thread `child` in move `j`, and is about to
record it at `i`. -/
structure Spawned (r : Run) (t : Tid) (o : ThreadRef) (id : ThreadId) (child : Tid) (j i : Nat) :
    Prop where
  before : j < i
  step : ∃ choice, r.move j = .advance t choice
  new : child = (r.state j).store.nextThread
  installs : (r.state (j + 1)).call? child = some (.install id)
  waits : ∀ k, j < k → k ≤ i → (r.state k).call? t = some (.start o (.record id child))

/-- A start that is about to record a thread has spawned it. -/
theorem exists_spawned (h : (r.state i).call? t = some (.start o (.record id child))) :
    ∃ j, r.Spawned t o id child j i := by
  induction i with
  | zero => cases h
  | succ i ih =>
    rcases Machine.record_cases (r.state_allows i) (r.state_sound i) h with
      hbefore | ⟨-, hstep, hnew, hinstalls⟩
    · obtain ⟨j, hspawned⟩ := ih hbefore
      refine ⟨j, Nat.lt_succ_of_lt hspawned.before, hspawned.step, hspawned.new,
        hspawned.installs, ?_⟩
      intro k hjk hk
      rcases Nat.lt_or_eq_of_le hk with hlt | rfl
      · exact hspawned.waits k hjk (Nat.le_of_lt_succ hlt)
      · exact h
    · refine ⟨i, Nat.lt_succ_self i, hstep, hnew, hinstalls, ?_⟩
      intro k hik hk
      obtain rfl : k = i + 1 := Nat.le_antisymm hk hik
      exact h

namespace Spawned

/-- The spawned thread exists from then on. -/
theorem born (h : r.Spawned t o id child j i) (hjk : j < k) :
    child < (r.state k).store.nextThread := by
  refine Nat.lt_of_lt_of_le (Nat.lt_of_not_le fun hle => ?_) (r.nextThread_mono hjk)
  have hnone := (r.state_sound (j + 1)).unborn child hle
  cases (show (r.state (j + 1)).call? child = none by rw [Machine.call?, hnone]; rfl).symm.trans
    h.installs

/-- No two starts have spawned the same thread. -/
theorem unique (h : r.Spawned t o id child j i) (h' : r.Spawned u o' id' child k i') :
    j = k ∧ t = u := by
  obtain rfl : j = k := Nat.le_antisymm
    (Nat.not_lt.1 fun hlt => absurd (h'.born hlt) (h.new ▸ Nat.lt_irrefl _))
    (Nat.not_lt.1 fun hlt => absurd (h.born hlt) (h'.new ▸ Nat.lt_irrefl _))
  obtain ⟨choice, hmove⟩ := h.step
  obtain ⟨choice', hmove'⟩ := h'.step
  cases hmove.symm.trans hmove'
  exact ⟨rfl, rfl⟩

/-- A thread that a start has spawned comes to its entry function before it ends. -/
theorem reachesEntry (h : r.Spawned t o id child j i) (hexit : r.move k = .exit child e) :
    ∃ n < k, r.ReachesEntry child n := by
  have hallows := r.state_allows k
  rw [hexit] at hallows
  obtain ⟨hborn, -, hcalls⟩ := Machine.lives_of_exit hallows
  have hjk : j < k := by
    apply Nat.lt_of_not_le
    intro hkj
    exact absurd (Nat.lt_of_lt_of_le hborn (r.nextThread_mono hkj)) (h.new ▸ Nat.lt_irrefl _)
  rcases entered_or_installing h.installs hjk with hcall | hentered
  · rw [Machine.call?, hcalls] at hcall
    cases hcall
  · exact hentered

end Spawned

end Run

end Interlock
