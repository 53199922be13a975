import Interlock.Proofs.Monitor.Custody
import Mathlib.Data.Finset.Card
import Mathlib.Data.Finset.Range

/-!
# Monitors that share a mutex

A monitor is created over a mutex of its own, or over the mutex of an earlier one. So monitors come
in families, each with one mutex. The mutex counts the monitors that use it, and goes away with the
last of them, whichever that is.

  * `Run.Descends`: a monitor goes back, by sharing, to one that was created with a mutex of its
    own, and to no other one (`Run.Descends.unique`). The mutex and the condition variable of a
    monitor are told by the handles of the two (`Run.Descends.parts`);
  * `Run.monitor_of_mutex_part`, `Run.monitor_of_cond_part`: nothing but a monitor of the family
    takes these away;
  * `Run.members`: the live monitors of a family, and `Run.lockUsers_eq`: the count of a mutex is
    how many there are;
  * `Run.vanishes_iff`: the mutex goes away with the last of them;
  * `Run.Families`, `Run.monitor_families`: how monitors that share a mutex go together.

Handles are given out in their order and never again, so the creations and destructions of a run
make a forest, whose roots are the monitors with a mutex of their own. The count of a mutex is
compared with the live members of its family move by move, and what is said about destruction is
then read off the move in which the count comes to nothing.
-/

namespace Interlock

/-! ## Monitors in the store

A monitor is a pair of handles, of its mutex and of its condition variable, and it never changes.
The count of the users of a mutex changes with the creations and destructions of monitors only. -/

namespace Creation

variable {s : Store} {c : Creation} {mo : MonitorRef}

/-- A creation leaves the monitors that there are as they are. -/
theorem monitors_of_lt (c : Creation) {mo : Nat} (h : mo < s.nextHandle) :
    (c.apply s).monitors.get mo = s.monitors.get mo := by
  cases c with
  | monitor backend => exact Table.get_set_of_ne _ _ (show mo ≠ s.nextHandle + 2 by omega)
  | sharing other => exact Table.get_set_of_ne _ _ (show mo ≠ s.nextHandle + 1 by omega)
  | semaphore permits =>
    simp only [apply, Store.addSemaphore?]
    cases permits.valid <;> rfl
  | thread name stackSize =>
    obtain ⟨log, hreport⟩ := s.exists_reportName?_eq name
    simp only [apply, Store.addThread, hreport]
    rfl
  | _ => rfl

/-- The mutex of a new monitor has one user more. -/
theorem lockUsers_of_monitor (h : c.object? s = some (.monitor mo)) (l : LockRef) :
    (c.apply s).lockUsers.get l =
      s.lockUsers.get l + if ((c.apply s).monitors.get mo).lock = l then 1 else 0 := by
  have hset (k : LockRef) : (s.lockUsers.set k (s.lockUsers.get k + 1)).get l =
      s.lockUsers.get l + if k = l then 1 else 0 := by
    rw [Table.get_set]
    split <;> simp_all [eq_comm]
  cases c with
  | monitor backend =>
    cases h
    refine (hset s.nextHandle).trans ?_
    simp only [apply, Store.addMonitor, Store.addMonitorOver, Table.get_set_self]
    rfl
  | sharing other =>
    cases h
    refine (hset (s.monitors.get other).lock).trans ?_
    simp only [apply, Store.shareMonitor, Store.addMonitorOver, Table.get_set_self]
  | semaphore permits => cases (eq_of_semaphore h).1
  | _ => cases h

/-- Other creations leave the counts alone. -/
theorem lockUsers_of_other (h : ∀ mo, c.object? s ≠ some (.monitor mo)) :
    (c.apply s).lockUsers = s.lockUsers := by
  cases c with
  | monitor backend => exact absurd rfl (h _)
  | sharing other => exact absurd rfl (h _)
  | semaphore permits =>
    simp only [apply, Store.addSemaphore?]
    cases permits.valid <;> rfl
  | thread name stackSize =>
    obtain ⟨log, hreport⟩ := s.exists_reportName?_eq name
    simp only [apply, Store.addThread, hreport]
    rfl
  | _ => rfl

theorem lock_of_monitor (s : Store) (backend : Backend) :
    ((monitor backend).apply s).lock s.nextHandle = some .free :=
  congrArg Mutex.state (Table.get_set_self ..)

end Creation

namespace Store

/-- The destruction of a monitor takes one user from its mutex. -/
theorem destroy_monitor_lockUsers (s : Store) (mo : MonitorRef) (unwinding : Bool) (l : LockRef) :
    (s.destroy (.monitor mo) unwinding).1.lockUsers.get l =
      s.lockUsers.get l - if (s.monitors.get mo).lock = l then 1 else 0 := by
  have hset : (s.lockUsers.set (s.monitors.get mo).lock
      (s.lockUsers.get (s.monitors.get mo).lock - 1)).get l =
        s.lockUsers.get l - if (s.monitors.get mo).lock = l then 1 else 0 := by
    rw [Table.get_set]
    split <;> simp_all [eq_comm]
  rw [← hset]
  simp only [destroy, destroyMonitor, releaseShare]
  split
  · rw [destroyCond_fst, destroyMutex_fst]
    rfl
  · rw [destroyCond_fst]
    rfl

/-- Other destructions leave the counts alone. -/
theorem destroy_lockUsers_of_other (s : Store) {o : Object} (h : ∀ mo, o ≠ .monitor mo)
    (unwinding : Bool) : (s.destroy o unwinding).1.lockUsers = s.lockUsers := by
  cases o with
  | mutex l => exact (congrArg lockUsers (s.destroyMutex_fst l unwinding)).trans rfl
  | condition c => exact (congrArg lockUsers (s.destroyCond_fst c unwinding)).trans rfl
  | once g => exact (congrArg lockUsers (s.destroyMutex_fst _ unwinding)).trans rfl
  | monitor mo => exact absurd rfl (h mo)
  | semaphore r => rfl
  | events e => rfl
  | thread r => exact (congrArg lockUsers (s.reportDrop_fst unwinding _)).trans rfl

/-- It takes the mutex away if there was no other user. -/
theorem destroy_monitor_lock (s : Store) (mo : MonitorRef) (unwinding : Bool) :
    (s.destroy (.monitor mo) unwinding).1.lock (s.monitors.get mo).lock =
      if s.lockUsers.get (s.monitors.get mo).lock ≤ 1 then none
      else s.lock (s.monitors.get mo).lock := by
  simp only [destroy, destroyMonitor, releaseShare]
  split
  · rw [destroyCond_lock, destroyMutex_lock, if_pos rfl]
  · rw [destroyCond_lock]
    rfl

end Store

/-- A wakeup leaves all other condition variables alone. -/
theorem WakeupPhase.step_others {c d : CondRef} {event : WakeEvent} {choice : Choice} {s : Store}
    (p : WakeupPhase) (hd : d ≠ c) :
    (p.step c event choice s).Keeps fun s' => s'.conds.get d = s.conds.get d :=
  (p.step_turns).mono (fun _ _ hs => hs.others d hd) (fun _ _ hs => hs.others d hd)
    fun _ hs => hs.others d hd

namespace Run

/-! ## Families

The ancestor of a monitor is told by its mutex: the mutex has the handle that was given out with the
ancestor. That is why kinship, which is about the history, agrees with having the same mutex, which
is what the code compares; and it is so whether the ancestor is still alive or not. -/

/-- Monitor `mo` before move `i`. -/
def monitor (r : Run) (mo : MonitorRef) (i : Nat) : Monitor := (r.state i).store.monitors.get mo

/-- Monitor `root` was created with a mutex of its own, and the other one goes back to it by
sharing. -/
inductive Descends (r : Run) (root : MonitorRef) : MonitorRef → Prop
  | root {b : Nat} {backend : Backend} (hmove : r.move b = .create (.monitor backend))
    (hnew : r.Creates (.monitor root) b) : Descends r root root
  | share {mo mo' : MonitorRef} {i : Nat} (h : Descends r root mo)
    (hmove : r.move i = .create (.sharing mo)) (hnew : r.Creates (.monitor mo') i) :
    Descends r root mo'

/-- Two monitors go back to the same one. -/
def Kin (r : Run) (a b : MonitorRef) : Prop := ∃ root, r.Descends root a ∧ r.Descends root b

/-- No other live monitor has the mutex of monitor `mo`. -/
def Sole (r : Run) (mo : MonitorRef) (i : Nat) : Prop :=
  ∀ mo', r.Live (.monitor mo') i → (r.monitor mo i).isFor (r.monitor mo' i) = true → mo' = mo

/-- Mutex `l` goes away in move `i`. -/
def Vanishes (r : Run) (l : LockRef) (i : Nat) : Prop :=
  (r.state i).store.lock l ≠ none ∧ (r.state (i + 1)).store.lock l = none

variable {r : Run} {i j k b : Nat} {mo mo' other root root' l : Nat} {o : Object}
  {backend : Backend}

/-- A monitor keeps its two handles. -/
theorem monitor_stays (hmo : mo < (r.state i).store.nextHandle) (hik : i ≤ k) :
    r.monitor mo k = r.monitor mo i := by
  induction hik with
  | refl => rfl
  | @step k hik ih =>
    refine Eq.trans ?_ ih
    cases r.passage k with
    | @created c _ hstore =>
      rw [monitor, hstore]
      exact c.monitors_of_lt (Nat.lt_of_lt_of_le hmo (r.nextHandle_mono hik))
    | @destroyed o unwinding _ hstore =>
      obtain ⟨_, _, _, _, hsame⟩ := (r.state k).store.destroy_fst o unwinding
      rw [monitor, hstore, hsame]
      rfl
    | kept _ _ hstore =>
      rw [monitor, hstore.monitors]
      rfl

/-- It has them from its creation on. -/
theorem Creates.monitor_stays (hnew : r.Creates (.monitor mo) j) (hjk : j < k) :
    r.monitor mo k = r.monitor mo (j + 1) :=
  Run.monitor_stays (by
    rw [(creates_handle hnew).2]
    exact Nat.lt_succ_self mo) hjk

theorem Live.monitor_succ (hlive : r.Live (.monitor mo) i) :
    r.monitor mo (i + 1) = r.monitor mo i :=
  Run.monitor_stays hlive.handle_lt (Nat.le_succ i)

/-- A monitor is created with a mutex of its own, or shares one. -/
theorem Creates.monitor_cases (hnew : r.Creates (.monitor mo) i) :
    (∃ backend, r.move i = .create (.monitor backend)) ∨
      ∃ other, r.move i = .create (.sharing other) := by
  obtain ⟨c, hmove, hobject⟩ := hnew
  cases c with
  | monitor backend => exact .inl ⟨backend, hmove⟩
  | sharing other => exact .inr ⟨other, hmove⟩
  | semaphore permits => cases (Creation.eq_of_semaphore hobject).1
  | _ => cases hobject

/-- A monitor with a mutex of its own takes three handles. -/
theorem Creates.of_monitor (hnew : r.Creates (.monitor mo) i)
    (hmove : r.move i = .create (.monitor backend)) :
    mo = (r.state i).store.nextHandle + 2 ∧
      r.monitor mo (i + 1) = ⟨(r.state i).store.nextHandle, (r.state i).store.nextHandle + 1⟩ := by
  obtain ⟨c, hmove', hobject⟩ := hnew
  cases hmove.symm.trans hmove'
  cases hobject
  refine ⟨rfl, ?_⟩
  rw [monitor, state_succ, hmove]
  exact Table.get_set_self ..

/-- A monitor that shares a mutex takes two. -/
theorem Creates.of_sharing (hnew : r.Creates (.monitor mo) i)
    (hmove : r.move i = .create (.sharing other)) :
    mo = (r.state i).store.nextHandle + 1 ∧
      r.monitor mo (i + 1) = ⟨(r.monitor other i).lock, (r.state i).store.nextHandle⟩ := by
  obtain ⟨c, hmove', hobject⟩ := hnew
  cases hmove.symm.trans hmove'
  cases hobject
  refine ⟨rfl, ?_⟩
  rw [monitor, state_succ, hmove]
  exact Table.get_set_self ..

theorem Owning.sharing (hown : r.Owning) (hmove : r.move i = .create (.sharing mo)) :
    r.Owned (.monitor mo) i :=
  hown i _ (by rw [hmove]; rfl)

/-- An ancestor was created with a mutex of its own. -/
theorem Descends.origin (h : r.Descends root mo) :
    ∃ b backend, r.move b = .create (.monitor backend) ∧ r.Creates (.monitor root) b := by
  induction h with
  | root hmove hnew => exact ⟨_, _, hmove, hnew⟩
  | share _ _ _ ih => exact ih

theorem Descends.created (h : r.Descends root mo) : ∃ i, r.Creates (.monitor mo) i := by
  cases h with
  | root _ hnew => exact ⟨_, hnew⟩
  | share _ _ hnew => exact ⟨_, hnew⟩

/-- Every monitor goes back to one with a mutex of its own. -/
theorem exists_descends (hown : r.Owning) (hnew : r.Creates (.monitor mo) i) :
    ∃ root, r.Descends root mo := by
  induction i using Nat.strongRecOn generalizing mo with
  | ind i ih =>
    rcases hnew.monitor_cases with ⟨backend, hmove⟩ | ⟨other, hmove⟩
    · exact ⟨mo, .root hmove hnew⟩
    · obtain ⟨j, hji, hother, -⟩ := hown.sharing hmove
      obtain ⟨root, h⟩ := ih j hji hother
      exact ⟨root, .share h hmove hnew⟩

/-- The mutex of a monitor was created with the one that it goes back to, and its condition variable
with the monitor itself. -/
theorem Descends.parts (h : r.Descends root mo) (hown : r.Owning)
    (hnew : r.Creates (.monitor mo) j) (hjk : j < k) :
    root = (r.monitor mo k).lock + 2 ∧ mo = (r.monitor mo k).cond + 1 := by
  induction h generalizing j k with
  | root hmove hroot =>
    obtain rfl := (hnew.unique hroot rfl).1
    obtain ⟨hmo, hparts⟩ := hroot.of_monitor hmove
    rw [hnew.monitor_stays hjk, hparts]
    exact ⟨hmo, hmo⟩
  | @share mo mo' i _ hmove hmo' ih =>
    obtain rfl := (hnew.unique hmo' rfl).1
    obtain ⟨hmo, hparts⟩ := hmo'.of_sharing hmove
    obtain ⟨j', hj', hother, -⟩ := hown.sharing hmove
    rw [hnew.monitor_stays hjk, hparts]
    exact ⟨(ih hother hj').1, hmo⟩

/-- A monitor has one ancestor. -/
theorem Descends.unique (h : r.Descends root mo) (h' : r.Descends root' mo) (hown : r.Owning) :
    root = root' := by
  obtain ⟨i, hnew⟩ := h.created
  have hlock := (h.parts hown hnew (Nat.lt_succ_self i)).1
  exact hlock.trans (h'.parts hown hnew (Nat.lt_succ_self i)).1.symm

/-- A monitor shares the mutex of one of its family. -/
theorem Descends.of_sharing (h : r.Descends root mo) (hown : r.Owning)
    (hmove : r.move i = .create (.sharing other)) (hnew : r.Creates (.monitor mo) i) :
    r.Descends root other := by
  obtain ⟨j, -, hother, -⟩ := hown.sharing hmove
  obtain ⟨root', h'⟩ := exists_descends hown hother
  exact h.unique (.share h' hmove hnew) hown ▸ h'

/-- An ancestor is older. -/
theorem Descends.le (h : r.Descends root mo) (hown : r.Owning) : root ≤ mo := by
  induction h with
  | root => exact Nat.le_refl _
  | share _ hmove hnew ih =>
    have hlt := ((hown.sharing hmove).live hown).handle_lt
    exact Nat.le_trans ih (Nat.le_of_lt (Nat.lt_of_lt_of_le hlt (creates_handle hnew).1))

theorem Live.descends (hlive : r.Live (.monitor mo) i) (hown : r.Owning) :
    ∃ root, r.Descends root mo := by
  obtain ⟨j, -, hnew, -⟩ := hlive
  exact exists_descends hown hnew

/-- The handles of a live monitor tell its ancestor and itself. -/
theorem Descends.live_parts (h : r.Descends root mo) (hown : r.Owning)
    (hlive : r.Live (.monitor mo) i) :
    root = (r.monitor mo i).lock + 2 ∧ mo = (r.monitor mo i).cond + 1 := by
  obtain ⟨j, hji, hnew, -⟩ := hlive
  exact h.parts hown hnew hji

/-- Two live monitors have the same mutex if they go back to the same one. -/
theorem isFor_iff_kin (hown : r.Owning) (hlive : r.Live (.monitor mo) i)
    (hlive' : r.Live (.monitor mo') i) :
    (r.monitor mo i).isFor (r.monitor mo' i) = true ↔ r.Kin mo mo' := by
  obtain ⟨root, h⟩ := hlive.descends hown
  obtain ⟨root', h'⟩ := hlive'.descends hown
  have hlock := (h.live_parts hown hlive).1
  have hlock' := (h'.live_parts hown hlive').1
  simp only [Monitor.isFor, beq_iff_eq]
  constructor
  · intro heq
    rw [heq, ← hlock'] at hlock
    exact ⟨root, h, hlock ▸ h'⟩
  · rintro ⟨root'', hroot, hroot'⟩
    have heq := (h.unique hroot hown).trans (h'.unique hroot' hown).symm
    exact Nat.add_right_cancel (hlock.symm.trans (heq.trans hlock'))

/-- No two live monitors have the same condition variable. -/
theorem conds_distinct (hown : r.Owning) (hlive : r.Live (.monitor mo) i)
    (hlive' : r.Live (.monitor mo') i) (hne : mo ≠ mo') :
    (r.monitor mo i).cond ≠ (r.monitor mo' i).cond := by
  obtain ⟨root, h⟩ := hlive.descends hown
  obtain ⟨root', h'⟩ := hlive'.descends hown
  intro heq
  have hcond := (h.live_parts hown hlive).2
  rw [heq, ← (h'.live_parts hown hlive').2] at hcond
  exact hne hcond

/-! ## What goes away

The mutex of a family could be taken away by any destruction, as far as the store is concerned. That
only a monitor of the family does so rests on the handles again: the parts of any other object were
created with that object. -/

/-- A run-once gate has the mutex that was created with it. -/
theorem gate_of_created {g : Nat} (hnew : r.Creates (.once g) j) (hjk : j < k) :
    ((r.state k).store.onces.get g).lock = (r.state j).store.nextHandle := by
  induction hjk with
  | refl =>
    obtain ⟨c, hmove, hobject⟩ := hnew
    cases c with
    | once =>
      cases hobject
      rw [state_succ, hmove]
      exact congrArg Once.lock (Table.get_set_self ..)
    | semaphore permits => cases (Creation.eq_of_semaphore hobject).1
    | _ => cases hobject
  | @step k hjk ih =>
    have hlt : g < (r.state k).store.nextHandle := by
      have hhandle := (creates_handle hnew).2
      have hmono := r.nextHandle_mono (show j + 1 ≤ k from hjk)
      simp only [Object.handle] at hhandle
      omega
    rw [(r.state_change k).handles.2 g hlt, ih]

/-- The mutex of a family goes away with a monitor of the family only, and only if it has no other
user. -/
theorem monitor_of_mutex_part (hown : r.Owning) (h : r.Descends (l + 2) mo) (hd : r.Destroys o i)
    (hpart : .mutex l ∈ o.parts (r.state i).store) :
    ∃ mo', o = .monitor mo' ∧ r.Descends (l + 2) mo' ∧
      (r.state i).store.lockUsers.get l ≤ 1 := by
  obtain ⟨b, backend, hmove, hroot⟩ := h.origin
  obtain ⟨hhandle, -⟩ := hroot.of_monitor hmove
  have hnext := (creates_handle hroot).2
  obtain ⟨j, hji, hnew, -⟩ := hd.live hown
  obtain ⟨hle, hlt⟩ := creates_handle hnew
  simp only [Object.handle] at hnext
  -- the mutex belongs to the creation of the first of the family
  have hfirst (hj : (r.state j).store.nextHandle ≤ l)
      (hj' : l < (r.state (j + 1)).store.nextHandle) : o = .monitor (l + 2) := by
    obtain rfl : j = b := made_together hj hj' (by omega) (by omega)
    exact hnew.same hroot
  cases o with
  | monitor mo' =>
    simp only [Object.parts, List.mem_cons, reduceCtorEq, false_or] at hpart
    split at hpart
    · simp only [List.mem_singleton, Object.mutex.injEq] at hpart
      obtain ⟨root', h'⟩ := exists_descends hown hnew
      have hlock := (h'.parts hown hnew hji).1
      rw [monitor, ← hpart] at hlock
      exact ⟨mo', rfl, hlock ▸ h', by rwa [hpart]⟩
    · cases hpart
  | mutex l' =>
    obtain rfl : l = l' := by simpa [Object.parts] using hpart
    simp only [Object.handle] at hle hlt
    cases hfirst hle (by omega)
  | once g =>
    have hpart : l = ((r.state i).store.onces.get g).lock := by simpa [Object.parts] using hpart
    have hl : l = (r.state j).store.nextHandle := hpart.trans (gate_of_created hnew hji)
    cases hfirst (by omega) (by omega)
  | condition | semaphore | events | thread => simp [Object.parts] at hpart

/-- The condition variable of a monitor goes away with this monitor only. -/
theorem monitor_of_cond_part (hown : r.Owning) (hlive : r.Live (.monitor mo) i)
    (hd : r.Destroys o i) (hpart : .condition (r.monitor mo i).cond ∈ o.parts (r.state i).store) :
    o = .monitor mo := by
  obtain ⟨root, h⟩ := hlive.descends hown
  obtain ⟨-, hcond⟩ := h.live_parts hown hlive
  obtain ⟨n, -, hmo, -⟩ := hlive
  obtain ⟨j, hji, hnew, -⟩ := hd.live hown
  cases o with
  | condition c =>
    obtain rfl : (r.monitor mo i).cond = c := by simpa [Object.parts] using hpart
    obtain ⟨hle, hlt⟩ := creates_handle hnew
    obtain ⟨-, hlt'⟩ := creates_handle hmo
    have hle' : (r.state n).store.nextHandle < mo := by
      rcases hmo.monitor_cases with ⟨backend, hmove⟩ | ⟨other, hmove⟩
      -- the condition variable is created in the same move as its monitor, with a handle of its own
      · have hhandle := (hmo.of_monitor hmove).1
        omega
      · have hhandle := (hmo.of_sharing hmove).1
        omega
    simp only [Object.handle] at hle hlt hlt'
    obtain rfl : j = n := made_together hle (by omega) (by omega) (by omega)
    omega
  | monitor mo' =>
    -- two monitors with one condition variable were created in one move, so they are one
    obtain ⟨root', h'⟩ := exists_descends hown hnew
    have hcond' := (h'.parts hown hnew hji).2
    rw [monitor] at hcond'
    have heq : (r.monitor mo i).cond = ((r.state i).store.monitors.get mo').cond := by
      simp only [Object.parts, List.mem_cons, Object.condition.injEq] at hpart
      rcases hpart with heq | hpart
      · exact heq
      · split at hpart <;> simp at hpart
    rw [← heq] at hcond'
    exact congrArg Object.monitor (hcond'.trans hcond.symm)
  | mutex | semaphore | events | thread => simp [Object.parts] at hpart
  | once g => simp [Object.parts] at hpart

/-! ## The users of a mutex

The count in the store is how many live monitors there are in the family. It is the invariant of
this module, an induction with one case for each passage. -/

open Classical in
/-- The live monitors that go back to monitor `root`. -/
noncomputable def members (r : Run) (root : MonitorRef) (i : Nat) : Finset MonitorRef :=
  (Finset.range (r.state i).store.nextHandle).filter fun mo =>
    r.Live (.monitor mo) i ∧ r.Descends root mo

theorem mem_members : mo ∈ r.members root i ↔ r.Live (.monitor mo) i ∧ r.Descends root mo := by
  simp only [members, Finset.mem_filter, Finset.mem_range, and_iff_right_iff_imp]
  exact fun h => h.1.handle_lt

/-- A creation adds one member to its family. -/
theorem members_created (hnew : r.Creates (.monitor mo) i) (h : r.Descends root' mo)
    (hown : r.Owning) (root : Nat) : (r.members root (i + 1)).card =
      (r.members root i).card + if root' = root then 1 else 0 := by
  -- the new monitor was not there, so it adds one to its own family and nothing to the others
  have hborn : ¬ r.Live (.monitor mo) i := by
    intro hlive
    exact absurd hlive.handle_lt (Nat.not_lt.2 (creates_handle hnew).1)
  have hsucc (mo' : MonitorRef) : r.Live (.monitor mo') (i + 1) ↔
      mo' = mo ∨ r.Live (.monitor mo') i := by
    rw [live_succ]
    refine or_congr ⟨fun hnew' => ?_, fun heq => heq ▸ hnew⟩ (and_iff_left hnew.not_destroys)
    cases hnew.same hnew'
    rfl
  split
  · subst root'
    rw [← Finset.card_insert_of_notMem fun hmem => hborn (mem_members.1 hmem).1]
    refine congrArg Finset.card (Finset.ext fun mo' => ?_)
    simp only [mem_members, Finset.mem_insert, hsucc]
    constructor
    · rintro ⟨rfl | hlive, hdescends⟩
      · exact .inl rfl
      · exact .inr ⟨hlive, hdescends⟩
    · rintro (rfl | ⟨hlive, hdescends⟩)
      · exact ⟨.inl rfl, h⟩
      · exact ⟨.inr hlive, hdescends⟩
  · refine (congrArg Finset.card (Finset.ext fun mo' => ?_)).trans (Nat.add_zero _).symm
    simp only [mem_members, hsucc]
    refine and_congr_left fun hdescends => or_iff_right ?_
    rintro rfl
    exact absurd (h.unique hdescends hown) ‹_›

/-- A destruction takes one away. -/
theorem members_destroyed (hd : r.Destroys (.monitor mo) i) (h : r.Descends root' mo)
    (hown : r.Owning) (root : Nat) : (r.members root (i + 1)).card =
      (r.members root i).card - if root' = root then 1 else 0 := by
  have hsucc (mo' : MonitorRef) : r.Live (.monitor mo') (i + 1) ↔
      r.Live (.monitor mo') i ∧ mo' ≠ mo := by
    rw [live_succ, or_iff_right fun hnew => hnew.not_destroys hd]
    refine and_congr_right fun _ => not_congr ⟨fun hd' => ?_, fun heq => heq ▸ hd⟩
    cases hd.same hd'
    rfl
  split
  · subst root'
    rw [← Finset.card_erase_of_mem (mem_members.2 ⟨hd.live hown, h⟩)]
    refine congrArg Finset.card (Finset.ext fun mo' => ?_)
    simp only [mem_members, Finset.mem_erase, hsucc]
    tauto
  · refine (congrArg Finset.card (Finset.ext fun mo' => ?_)).trans (Nat.sub_zero _).symm
    simp only [mem_members, hsucc]
    refine and_congr_left fun hdescends => and_iff_left ?_
    rintro rfl
    exact absurd (h.unique hdescends hown) ‹_›

/-- Other moves leave families as they are. -/
theorem members_kept (hcreate : ∀ mo, ¬ r.Creates (.monitor mo) i)
    (hdestroy : ∀ mo, ¬ r.Destroys (.monitor mo) i) (root : Nat) :
    r.members root (i + 1) = r.members root i := by
  ext mo
  simp only [mem_members, live_succ, hcreate, hdestroy, false_or, not_false_eq_true, and_true]

/-- A mutex counts the live monitors that use it. -/
theorem lockUsers_eq (hown : r.Owning) (i l : Nat) :
    (r.state i).store.lockUsers.get l = (r.members (l + 2) i).card := by
  -- by induction on the moves: only a monitor that comes or goes changes the count, and by one
  induction i with
  | zero =>
    have hnone : r.members (l + 2) 0 = ∅ := by
      ext mo
      simp [mem_members, Live, Since]
    rw [hnone]
    rfl
  | succ i ih =>
    cases r.passage i with
    | @created c hmove hstore =>
      by_cases hmonitor : ∃ mo, c.object? (r.state i).store = some (.monitor mo)
      · obtain ⟨mo, hobject⟩ := hmonitor
        have hnew : r.Creates (.monitor mo) i := ⟨c, hmove, hobject⟩
        obtain ⟨root, h⟩ := exists_descends hown hnew
        have hroot := (h.parts hown hnew (Nat.lt_succ_self i)).1
        rw [members_created hnew h hown, ← ih, hstore, Creation.lockUsers_of_monitor hobject,
          ← hstore, hroot]
        simp only [Nat.add_right_cancel_iff]
        rfl
      · have hother (mo : MonitorRef) : c.object? (r.state i).store ≠ some (.monitor mo) :=
          fun hobject => hmonitor ⟨mo, hobject⟩
        rw [hstore, Creation.lockUsers_of_other hother,
          members_kept _ fun mo => not_destroys_of_create hmove _, ih]
        rintro mo ⟨c', hmove', hobject⟩
        cases hmove.symm.trans hmove'
        exact hother mo hobject
    | @destroyed o unwinding hd hstore =>
      by_cases hmonitor : ∃ mo, o = .monitor mo
      · obtain ⟨mo, rfl⟩ := hmonitor
        have hlive := hd.live hown
        obtain ⟨root, h⟩ := hlive.descends hown
        have hroot := (h.live_parts hown hlive).1
        rw [members_destroyed hd h hown, ← ih, hstore, Store.destroy_monitor_lockUsers, hroot]
        simp only [Nat.add_right_cancel_iff]
        rfl
      · have hother (mo : MonitorRef) : o ≠ .monitor mo := fun heq => hmonitor ⟨mo, heq⟩
        rw [hstore, Store.destroy_lockUsers_of_other _ hother,
          members_kept (fun mo hnew => hnew.not_destroys hd) fun mo hd' => hother mo (hd.same hd'),
          ih]
    | kept hcreate hdestroy hstore =>
      rw [hstore.lockUsers, members_kept (fun _ => hcreate _) fun _ => hdestroy _, ih]

/-- The count of a mutex is one if its monitor is the only one that is left. -/
theorem sole_iff (hown : r.Owning) (hlive : r.Live (.monitor mo) i) :
    r.Sole mo i ↔ (r.state i).store.lockUsers.get (r.monitor mo i).lock ≤ 1 := by
  obtain ⟨root, h⟩ := hlive.descends hown
  have hroot := (h.live_parts hown hlive).1
  rw [lockUsers_eq hown, ← hroot, Finset.card_le_one]
  have hmem : mo ∈ r.members root i := mem_members.2 ⟨hlive, h⟩
  constructor
  · intro hsole
    have honly (mo' : MonitorRef) (hmem' : mo' ∈ r.members root i) : mo' = mo := by
      obtain ⟨hlive', h'⟩ := mem_members.1 hmem'
      exact hsole mo' hlive' ((isFor_iff_kin hown hlive hlive').2 ⟨root, h, h'⟩)
    intro a ha b hb
    exact (honly a ha).trans (honly b hb).symm
  · intro hone mo' hlive' hfor
    obtain ⟨root', hroot, h'⟩ := (isFor_iff_kin hown hlive hlive').1 hfor
    obtain rfl := h.unique hroot hown
    exact hone mo' (mem_members.2 ⟨hlive', h'⟩) mo hmem

/-! ## What lives as long as the monitors

What a live monitor needs, its mutex and its condition variable, is there, since nobody else can
destroy it. -/

/-- The mutex of a live monitor is initialized. -/
theorem lock_of_live (hown : r.Owning) (hlive : r.Live (.monitor mo) i) :
    (r.state i).store.lock (r.monitor mo i).lock ≠ none := by
  induction i generalizing mo with
  | zero =>
    obtain ⟨j, hj, -⟩ := hlive
    cases hj
  | succ i ih =>
    rcases live_succ.1 hlive with hnew | ⟨hlive, hnot⟩
    · rcases hnew.monitor_cases with ⟨backend, hmove⟩ | ⟨other, hmove⟩
      · rw [(hnew.of_monitor hmove).2, state_succ, hmove]
        exact Creation.lock_of_monitor (r.state i).store backend ▸ Option.some_ne_none _
      · rw [(hnew.of_sharing hmove).2, state_succ, hmove]
        exact ih ((hown.sharing hmove).live hown)
    · have hinit := ih hlive
      obtain ⟨root, h⟩ := hlive.descends hown
      have hroot := (h.live_parts hown hlive).1
      rw [hlive.monitor_succ]
      cases r.passage i with
      | @created c hmove hstore =>
        rw [hstore]
        rcases (Store.grows_apply (r.state i).store c).locks (r.monitor mo i).lock with
          hsame | ⟨hnew, -⟩
        · exact hsame ▸ hinit
        · have hle := h.le hown
          have hlt := hlive.handle_lt
          simp only [Object.handle] at hlt
          omega
      | @destroyed o unwinding hd hstore =>
        rw [hstore]
        rcases (r.state i).store.destroy_lock o unwinding (r.monitor mo i).lock with
          hsame | ⟨-, hpart⟩
        · exact hsame ▸ hinit
        -- only the last monitor of the family takes it away, and this one stays
        · obtain ⟨mo', rfl, h', husers⟩ := monitor_of_mutex_part hown (hroot ▸ h) hd hpart
          have hlive' := hd.live hown
          have heq : mo' = mo := (sole_iff hown hlive).2 husers mo' hlive'
            ((isFor_iff_kin hown hlive hlive').2 ⟨root, h, hroot ▸ h'⟩)
          exact absurd (heq ▸ hd) hnot
      | kept _ _ hstore => exact hstore.locks _ hinit

/-- The condition variable of a live monitor has the backend that the first of its family was
created with. -/
theorem backend_of_live (hown : r.Owning) (hmove : r.move b = .create (.monitor backend))
    (hroot : r.Creates (.monitor root) b) (h : r.Descends root mo)
    (hlive : r.Live (.monitor mo) i) : (r.state i).store.monitorBackend mo = some backend := by
  have hnew (s : Store) (c : CondRef) :
      ((s.conds.set c (.new backend)).get c).backend? = some backend := by
    rw [Table.get_set_self]
    cases backend <;> rfl
  have hparts (i : Nat) (mo : MonitorRef) : (r.state i).store.monitorBackend mo =
      ((r.state i).store.conds.get (r.monitor mo i).cond).backend? := rfl
  -- a monitor that shares takes the backend of the one it shares with, and keeps it while it lives
  induction i generalizing mo with
  | zero =>
    obtain ⟨j, hj, -⟩ := hlive
    cases hj
  | succ i ih =>
    rcases live_succ.1 hlive with hmo | ⟨hlive, hnot⟩
    · rcases hmo.monitor_cases with ⟨backend', hmove'⟩ | ⟨other, hmove'⟩
      · obtain rfl := h.unique (.root hmove' hmo) hown
        obtain rfl := (hroot.unique hmo rfl).1
        cases hmove.symm.trans hmove'
        rw [hparts, (hmo.of_monitor hmove').2, state_succ, hmove']
        exact hnew _ _
      · have hother := ih (h.of_sharing hown hmove' hmo) ((hown.sharing hmove').live hown)
        rw [hparts, (hmo.of_sharing hmove').2, state_succ, hmove']
        have hcond : ((Creation.sharing other).apply (r.state i).store).conds =
            (r.state i).store.conds.set (r.state i).store.nextHandle (.new backend) := by
          rw [← Option.getD_some (a := backend), ← hother]
          rfl
        exact hcond ▸ hnew _ _
    · have hbackend := ih h hlive
      rw [hparts] at hbackend
      rw [hparts, hlive.monitor_succ]
      cases r.passage i with
      | @created c _ hstore =>
        rw [hstore]
        rcases (Store.grows_apply (r.state i).store c).conds (r.monitor mo i).cond with
          hsame | ⟨hnew, -⟩
        · rw [hsame, hbackend]
        · have hcond := (h.live_parts hown hlive).2
          have hlt := hlive.handle_lt
          simp only [Object.handle] at hlt
          omega
      | @destroyed o unwinding hd hstore =>
        rw [hstore]
        rcases (r.state i).store.destroy_cond o unwinding (r.monitor mo i).cond with
          hsame | ⟨-, hpart⟩
        · rw [hsame, hbackend]
        · exact absurd (monitor_of_cond_part hown hlive hd hpart ▸ hd) hnot
      | kept _ _ hstore =>
        rw [hstore.conds _ (by rw [Condition.isInitialized, hbackend]; rfl), hbackend]

/-- A wakeup leaves the other condition variables and the calls of all other threads alone. -/
theorem wakeup_isolated {t : Tid} {choice : Choice} {c d : CondRef} {event : WakeEvent}
    {p : WakeupPhase} (hmove : r.move i = .advance t choice)
    (hcall : (r.state i).call? t = some (.wakeup c event p)) (hd : d ≠ c) :
    (r.state (i + 1)).store.conds.get d = (r.state i).store.conds.get d ∧
      ∀ u, u ≠ t → (r.state (i + 1)).calls.get u = (r.state i).calls.get u := by
  constructor
  · have hconds : (Call.step t choice (r.state i).store (.wakeup c event p)).Keeps fun s' =>
        s'.conds.get d = (r.state i).store.conds.get d :=
      (p.step_others hd).within fun _ _ hs => hs
    rw [(performs_of_move hmove hcall).2]
    exact hconds.storeFrom rfl
  · intro u hu
    obtain ⟨outer, hget⟩ := List.head?_eq_some_iff.1 hcall
    rw [state_succ, hmove]
    simp only [Machine.apply, Machine.advance, hget]
    cases hstep : Call.step t choice (r.state i).store (.wakeup c event p) with
    | next s' call' =>
      have hkind := Call.origin_of_step hstep
      cases call' <;> cases hkind
      exact Table.get_set_of_ne _ _ hu
    | blocked => rfl
    | _ => exact Table.get_set_of_ne _ _ hu

/-! ## The end of a family

The last live monitor takes the mutex with it, and none can be created after that, because sharing
needs a live one. -/

/-- The mutex of a family goes away with the last live monitor of the family. -/
theorem vanishes_iff (hown : r.Owning) (h : r.Descends (l + 2) other) : r.Vanishes l i ↔
    ∃ mo, r.Descends (l + 2) mo ∧ r.Destroys (.monitor mo) i ∧ r.Sole mo i := by
  have hlock {mo : Nat} (h : r.Descends (l + 2) mo) (hlive : r.Live (.monitor mo) i) :
      (r.monitor mo i).lock = l :=
    (Nat.add_right_cancel (h.live_parts hown hlive).1).symm
  constructor
  · rintro ⟨hinit, hgone⟩
    cases r.passage i with
    | @created c hmove hstore =>
      rw [hstore] at hgone
      rcases (Store.grows_apply (r.state i).store c).locks l with hsame | ⟨hle, hlt, -⟩
      · exact absurd (hsame.symm.trans hgone) hinit
      -- the mutex is new and free
      · obtain ⟨b, backend, hmove', hroot⟩ := h.origin
        have hhandle := (hroot.of_monitor hmove').1
        have hnext := (creates_handle hroot).2
        simp only [Object.handle] at hnext
        obtain rfl : i = b := made_together hle (hstore ▸ hlt) (by omega) (by omega)
        cases hmove.symm.trans hmove'
        obtain rfl : l = (r.state i).store.nextHandle := by omega
        cases (Creation.lock_of_monitor (r.state i).store backend).symm.trans hgone
    | @destroyed o unwinding hd hstore =>
      rw [hstore] at hgone
      rcases (r.state i).store.destroy_lock o unwinding l with hsame | ⟨-, hpart⟩
      · exact absurd (hsame.symm.trans hgone) hinit
      · obtain ⟨mo, rfl, hmo, husers⟩ := monitor_of_mutex_part hown h hd hpart
        have hlive := hd.live hown
        exact ⟨mo, hmo, hd, (sole_iff hown hlive).2 ((hlock hmo hlive).symm ▸ husers)⟩
    | kept _ _ hstore => exact absurd hgone (hstore.locks l hinit)
  · rintro ⟨mo, hmo, hd, hsole⟩
    have hlive := hd.live hown
    obtain ⟨unwinding, hstore⟩ := hd.store
    have hl := hlock hmo hlive
    refine ⟨hl ▸ lock_of_live hown hlive, ?_⟩
    rw [hstore, ← hl]
    exact ((r.state i).store.destroy_monitor_lock mo unwinding).trans
      (if_pos ((sole_iff hown hlive).1 hsole))

/-- A family that is extinct remains so. -/
theorem extinct_stays (hown : r.Owning) (hborn : root < (r.state i).store.nextHandle)
    (hnone : ∀ mo, r.Descends root mo → ¬ r.Live (.monitor mo) i) (hik : i ≤ k) :
    ∀ mo, r.Descends root mo → ¬ r.Live (.monitor mo) k := by
  induction hik with
  | refl => exact hnone
  | @step k hik ih =>
    intro mo h hlive
    rcases live_succ.1 hlive with hnew | ⟨hlive, -⟩
    · rcases hnew.monitor_cases with ⟨backend, hmove⟩ | ⟨other, hmove⟩
      · obtain rfl := h.unique (.root hmove hnew) hown
        have hle := (creates_handle hnew).1
        exact absurd (Nat.lt_of_lt_of_le hborn (r.nextHandle_mono hik)) (Nat.not_lt.2 hle)
      · exact ih other (h.of_sharing hown hmove hnew) ((hown.sharing hmove).live hown)
    · exact ih mo h hlive

/-- When the mutex has gone away nobody of the family is alive, and never will be. -/
theorem Vanishes.extinct (hv : r.Vanishes l i) (hown : r.Owning) (h : r.Descends (l + 2) other)
    (hik : i < k) : ∀ mo, r.Descends (l + 2) mo → ¬ r.Live (.monitor mo) k := by
  obtain ⟨mo, hmo, hd, hsole⟩ := (vanishes_iff hown h).1 hv
  have hlive := hd.live hown
  refine extinct_stays hown ?_ ?_ hik
  · have hle := hmo.le hown
    have hlt := hlive.handle_lt
    have hmono := r.nextHandle_mono (Nat.le_succ i)
    simp only [Object.handle] at hlt
    omega
  · intro mo' h' hlive'
    rcases live_succ.1 hlive' with hnew | ⟨hlive', hnot⟩
    · exact hnew.not_destroys hd
    · obtain rfl := hsole mo' hlive' ((isFor_iff_kin hown hlive hlive').2 ⟨_, hmo, h'⟩)
      exact hnot hd

/-- A mutex goes away once. -/
theorem Vanishes.unique (hv : r.Vanishes l i) (hv' : r.Vanishes l j) (hown : r.Owning)
    (h : r.Descends (l + 2) other) : i = j := by
  have hlater {i j : Nat} (hv : r.Vanishes l i) (hv' : r.Vanishes l j) (hij : i < j) : False := by
    obtain ⟨mo, hmo, hd, -⟩ := (vanishes_iff hown h).1 hv'
    exact hv.extinct hown h hij mo hmo (hd.live hown)
  exact Nat.le_antisymm (Nat.not_lt.1 (hlater hv' hv)) (Nat.not_lt.1 (hlater hv hv'))

/-- The mutex of an extinct family has gone away. -/
theorem exists_vanishes (hown : r.Owning) (h : r.Descends (l + 2) mo)
    (hnew : r.Creates (.monitor mo) j) (hjk : j < k)
    (hnone : ∀ mo, r.Descends (l + 2) mo → ¬ r.Live (.monitor mo) k) :
    ∃ i < k, r.Vanishes l i := by
  induction hjk with
  | refl => exact absurd (live_succ.2 (.inl hnew)) (hnone mo h)
  | @step k _ ih =>
    by_cases hleft : ∃ mo', r.Descends (l + 2) mo' ∧ r.Live (.monitor mo') k
    · obtain ⟨mo', h', hlive'⟩ := hleft
      have hgone {mo : MonitorRef} (h : r.Descends (l + 2) mo) (hlive : r.Live (.monitor mo) k) :
          r.Destroys (.monitor mo) k := by
        refine Classical.byContradiction fun hnot => ?_
        exact hnone mo h (live_succ.2 (.inr ⟨hlive, hnot⟩))
      refine ⟨k, Nat.lt_succ_self k, (vanishes_iff hown h).2 ⟨mo', h', hgone h' hlive', ?_⟩⟩
      intro a ha hfor
      obtain ⟨root, hroot, hroot'⟩ := (isFor_iff_kin hown hlive' ha).1 hfor
      obtain rfl := h'.unique hroot hown
      cases (hgone hroot' ha).same (hgone h' hlive')
      rfl
    · obtain ⟨i, hik, hv⟩ := ih fun mo' h' hlive' => hleft ⟨mo', h', hlive'⟩
      exact ⟨i, Nat.lt_succ_of_lt hik, hv⟩

/-- The destructor of a monitor finds the mutex held if no other monitor uses it and somebody has
it, and names the thread that has it. -/
theorem held_iff (hown : r.Owning) (hd : r.Destroys (.monitor mo) i) (owner : ThreadId) :
    .mutexDroppedHeld owner ∈ (r.state i).store.findings (.monitor mo) ↔
      r.Sole mo i ∧ ∃ u, r.Has (r.monitor mo i).lock u i ∧
        owner = (r.state i).store.ids.own.get u := by
  have hlive := hd.live hown
  have hcond (cond : Condition) : .mutexDroppedHeld owner ∉ cond.dropViolation.toList := by
    cases cond <;> simp only [Condition.dropViolation] <;> (try split) <;> simp
  have hfindings : (r.state i).store.findings (.monitor mo) =
      (if (r.state i).store.lockUsers.get (r.monitor mo i).lock ≤ 1 then
        (r.state i).store.findings (.mutex (r.monitor mo i).lock) else []) ++
      ((r.state i).store.conds.get (r.monitor mo i).cond).dropViolation.toList := rfl
  rw [hfindings, List.mem_append, or_iff_left (hcond _), sole_iff hown hlive]
  split
  · rename_i husers
    rw [and_iff_right husers]
    rcases findings_mutex r i (r.monitor mo i).lock with ⟨hnone, -⟩ | ⟨k, hk, hcases⟩
    · exact absurd hnone (lock_of_live hown hlive)
    rcases hcases with ⟨⟨u, hu⟩, hfound⟩ | ⟨hfree, hfound⟩
    · have hholder : k.holder = some u :=
        (Store.holder_of_lock hk).symm.trans (holder_iff_has.2 hu)
      -- nobody is in the code of the mutex, so its holder stands in the owner word
      have hpart : .mutex (r.monitor mo i).lock ∈ (Object.monitor mo).parts (r.state i).store := by
        rw [monitor] at husers ⊢
        simp [Object.parts, husers]
      have hgrip := (r.state_sound i).grip_of_unused hd.unused hpart u
      have howner := (r.state_holds _ i).owner_of_holder hk hholder (by rw [hgrip]; decide)
      simp only [hfound, List.mem_singleton, Violation.mutexDroppedHeld.injEq, howner]
      refine ⟨fun heq => ⟨u, hu, heq⟩, ?_⟩
      rintro ⟨u', hu', rfl⟩
      rw [Option.some.inj ((holder_iff_has.2 hu).symm.trans (holder_iff_has.2 hu'))]
    · simp [hfound, hfree]
  · simp [*]

/-! ## How monitors go together -/

/-- How the monitors of a run go together, those that share a mutex and those that do not. -/
structure Families (r : Run) : Prop where
  /-- To have the same mutex is an equivalence of the live monitors. -/
  equivalence : ∀ i, Equivalence fun a b : {mo : MonitorRef // r.Live (.monitor mo) i} =>
    (r.monitor a i).isFor (r.monitor b i) = true
  /-- Every monitor goes back, by sharing, to one that was created with a mutex of its own. -/
  origin : ∀ mo i, r.Creates (.monitor mo) i → ∃! root, r.Descends root mo
  /-- Live monitors have the same mutex exactly if they go back to the same one, alive or not. -/
  kin : ∀ a b i, r.Live (.monitor a) i → r.Live (.monitor b) i →
    ((r.monitor a i).isFor (r.monitor b i) = true ↔ r.Kin a b)
  /-- All of a family have the backend that the first of it was created with. -/
  backend : ∀ root b backend, r.move b = .create (.monitor backend) →
    r.Creates (.monitor root) b → ∀ mo i, r.Descends root mo → r.Live (.monitor mo) i →
      (r.state i).store.monitorBackend mo = some backend
  /-- Each has a condition variable of its own. -/
  conds : ∀ a b i, r.Live (.monitor a) i → r.Live (.monitor b) i → a ≠ b →
    (r.monitor a i).cond ≠ (r.monitor b i).cond
  /-- A step of a wakeup at one leaves the condition variable of another one, and the calls of the
  threads that wait there, as they were. -/
  notify : ∀ a b i, r.Live (.monitor a) i → r.Live (.monitor b) i → a ≠ b →
    ∀ t choice event p, r.move i = .advance t choice →
      (r.state i).call? t = some (.wakeup (r.monitor a i).cond event p) →
      (r.state (i + 1)).store.conds.get (r.monitor b i).cond =
          (r.state i).store.conds.get (r.monitor b i).cond ∧
        ∀ u, u ≠ t → (r.state (i + 1)).calls.get u = (r.state i).calls.get u
  /-- A monitor keeps its mutex and its condition variable. -/
  stays : ∀ mo j, r.Creates (.monitor mo) j → ∀ i, j < i → r.monitor mo i = r.monitor mo (j + 1)
  /-- At most one thread at a time has the mutex of a family, through whichever monitors it was
  locked and whether they are still alive. -/
  exclusive : ∀ a j b k, r.Creates (.monitor a) j → r.Creates (.monitor b) k → r.Kin a b →
    ∀ i t u, r.Has (r.monitor a (j + 1)).lock t i → r.Has (r.monitor b (k + 1)).lock u i → t = u
  /-- The mutex of a monitor goes away when the last live monitor of the family is destroyed. -/
  vanishes : ∀ mo j, r.Creates (.monitor mo) j → ∀ i, r.Vanishes (r.monitor mo (j + 1)).lock i ↔
    ∃ mo', r.Kin mo mo' ∧ r.Destroys (.monitor mo') i ∧ r.Sole mo' i
  /-- It does so once. -/
  once : ∀ mo j, r.Creates (.monitor mo) j → ∀ i k, r.Vanishes (r.monitor mo (j + 1)).lock i →
    r.Vanishes (r.monitor mo (j + 1)).lock k → i = k
  /-- And it has done so exactly if none of the family is alive. -/
  extinct : ∀ mo j, r.Creates (.monitor mo) j → ∀ k, j < k →
    ((∀ mo', r.Kin mo mo' → ¬ r.Live (.monitor mo') k) ↔
      ∃ i < k, r.Vanishes (r.monitor mo (j + 1)).lock i)
  /-- A monitor that is destroyed while another one shares its mutex leaves the mutex as it was. -/
  spares : ∀ mo i, r.Destroys (.monitor mo) i → ¬ r.Sole mo i →
    (r.state (i + 1)).store.lock (r.monitor mo i).lock =
      (r.state i).store.lock (r.monitor mo i).lock
  /-- What the destructor of a monitor reports: that the mutex is held exactly if no other monitor
  shares it and a thread has it, which it names. -/
  reports : ∀ mo i t choice unwinding, r.move i = .advance t choice →
    (r.state i).call? t = some (.destroy (.monitor mo) unwinding) →
    (r.state i).Finds t choice unwinding ((r.state i).store.findings (.monitor mo)) ∧
      ∀ owner, .mutexDroppedHeld owner ∈ (r.state i).store.findings (.monitor mo) ↔
        r.Sole mo i ∧ ∃ u, r.Has (r.monitor mo i).lock u i ∧
          owner = (r.state i).store.ids.own.get u

/-- Whoever goes back to the same monitor is kin. -/
theorem Descends.kin_iff (h : r.Descends root mo) (hown : r.Owning) :
    r.Kin mo mo' ↔ r.Descends root mo' := by
  refine ⟨?_, fun h' => ⟨root, h, h'⟩⟩
  rintro ⟨root', hroot, h'⟩
  exact h.unique hroot hown ▸ h'

theorem Creates.descends (hnew : r.Creates (.monitor mo) j) (hown : r.Owning) :
    r.Descends ((r.monitor mo (j + 1)).lock + 2) mo := by
  obtain ⟨root, h⟩ := exists_descends hown hnew
  exact (h.parts hown hnew (Nat.lt_succ_self j)).1 ▸ h

/-- In every run in which clients destroy and share what they own, whatever monitors they create,
share and destroy, and whatever they do with them. -/
theorem monitor_families (hown : r.Owning) : r.Families where
  equivalence i := by
    simp only [Monitor.isFor, beq_iff_eq]
    exact ⟨fun _ => rfl, Eq.symm, Eq.trans⟩
  origin := by
    intro mo i hnew
    obtain ⟨root, h⟩ := exists_descends hown hnew
    exact ⟨root, h, fun root' h' => h'.unique h hown⟩
  kin := fun a b i => isFor_iff_kin hown
  backend := fun root b backend hmove hroot mo i => backend_of_live hown hmove hroot
  conds := fun a b i => conds_distinct hown
  notify := by
    intro a b i ha hb hne t choice event p hmove hcall
    exact wakeup_isolated hmove hcall (conds_distinct hown hb ha hne.symm)
  stays := fun mo j hnew i hji => hnew.monitor_stays hji
  exclusive := by
    intro a j b k ha hb hkin i t u ht hu
    have h := ((ha.descends hown).kin_iff hown).1 hkin
    -- kinship is a common root, and the root tells the mutex
    have hsame : (r.monitor a (j + 1)).lock = (r.monitor b (k + 1)).lock :=
      Nat.add_right_cancel (h.unique (hb.descends hown) hown)
    rw [hsame] at ht
    exact Option.some.inj ((holder_iff_has.2 ht).symm.trans (holder_iff_has.2 hu))
  vanishes := by
    intro mo j hnew i
    have h := hnew.descends hown
    simp only [h.kin_iff hown]
    exact vanishes_iff hown h
  once := fun mo j hnew i k hv hv' => hv.unique hv' hown (hnew.descends hown)
  extinct := by
    intro mo j hnew k hjk
    have h := hnew.descends hown
    simp only [h.kin_iff hown]
    exact ⟨exists_vanishes hown h hnew hjk, fun ⟨i, hik, hv⟩ => hv.extinct hown h hik⟩
  spares := by
    intro mo i hd hsole
    obtain ⟨unwinding, hstore⟩ := hd.store
    rw [hstore]
    exact ((r.state i).store.destroy_monitor_lock mo unwinding).trans
      (if_neg fun husers => hsole ((sole_iff hown (hd.live hown)).2 husers))
  reports := by
    intro mo i t choice unwinding hmove hcall
    obtain ⟨outer, hget⟩ := List.head?_eq_some_iff.1 hcall
    exact ⟨Machine.finds_of_destroy hget choice,
      held_iff hown ⟨t, choice, unwinding, hmove, hcall⟩⟩

/-- Thread 0 creates a monitor and two more that share its mutex, the second by way of the first,
and destroys the original. It locks the mutex and forgets the guard, and destroys the others. -/
def orphaned : Run :=
  ofList
    ([.create (.monitor .fallback), .create (.sharing 2), .create (.sharing 4),
      .begin 0 (.destroy (.monitor 2) false)] ++ steps 0 1 ++ [.begin 0 (.locking 0)] ++
      steps 0 4 ++ [.begin 0 (.destroy (.monitor 4) false)] ++ steps 0 1 ++
      [.begin 0 (.destroy (.monitor 6) false)] ++ steps 0 1) (by decide +kernel)

/-- The last of them reports that the mutex is held, the others do not. -/
theorem monitor_families_orphaned :
    orphaned.Owning ∧ orphaned.Families ∧ orphaned.Destroys (.monitor 2) 4 ∧
      (orphaned.monitor 4 5).isFor (orphaned.monitor 6 5) = true ∧
      orphaned.Destroys (.monitor 4) 11 ∧ orphaned.Destroys (.monitor 6) 13 ∧
      (orphaned.state 13).store.lock 0 = some ⟨some 0, ⟨1⟩⟩ ∧
      (orphaned.state 13).store.log = [] ∧ orphaned.Vanishes 0 13 ∧
      (orphaned.state 14).store.log = [.violation (.mutexDroppedHeld ⟨1⟩)] := by
  have hown : orphaned.Owning := owning_ofList _ (by decide +kernel)
  refine ⟨hown, monitor_families hown, ?_, by decide +kernel, ?_, ?_, by decide +kernel,
    by decide +kernel, ⟨by decide +kernel, by decide +kernel⟩, by decide +kernel⟩
  · exact ⟨0, ⟨0, false⟩, false, rfl, by decide +kernel⟩
  · exact ⟨0, ⟨0, false⟩, false, rfl, by decide +kernel⟩
  · exact ⟨0, ⟨0, false⟩, false, rfl, by decide +kernel⟩

end Run

end Interlock
