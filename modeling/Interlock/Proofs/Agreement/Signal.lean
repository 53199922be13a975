import Interlock.Proofs.Agreement.Joint
import Interlock.Proofs.Agreement.Sleeper

/-!
# Signals and broadcasts on both backends

The inner steps of a wakeup, and what the twin does meanwhile.

  * `Machine.Calls`: a thread is in a wakeup, and its twin is about to notify;
  * `Machine.Calls.quiet`: the twin does not move;
  * `Machine.Calls.raiseOne`, `Machine.Calls.raiseAll`: the thread sets an event, and its twin
    removes the chosen sleeper from the queue, or all of them;
  * `Machine.Calls.reopen`: the thread opens the gate again, and its twin finds the queue empty;
  * `Machine.Calls.step`: any of these steps.
-/

namespace Interlock

/-! ## The queue

Whom the platform wakes is not specified: it is a parameter of the step, so the twin can wake whom
it has to. -/

namespace NativeQueue

variable {q : NativeQueue} {t u : Tid} {l k : LockRef}

/-- A signal can remove any waiter. -/
theorem exists_pick (hnodup : q.waiters.Nodup) (h : (t, l) ∈ q.waiters) :
    ∃ pick, ∀ w, w ∈ (q.notifyOne pick).waiters ↔ w ∈ q.waiters ∧ w ≠ (t, l) := by
  obtain ⟨i, hi, hget⟩ := List.getElem_of_mem h
  refine ⟨i, fun w => ?_⟩
  rw [notifyOne, Nat.mod_eq_of_lt hi, ← hnodup.erase_getElem i hi, hget, hnodup.mem_erase_iff,
    and_comm]

theorem notifyOne_of_empty (h : q.waiters = []) (pick : Nat) : (q.notifyOne pick).waiters = [] := by
  rw [notifyOne, h]
  rfl

end NativeQueue

/-! ## The phases of a wakeup

A portable wakeup goes through the gate, publishes, and sets an event, or finds nobody and opens the
gate again. All but its last step leave event `all` alone. -/

namespace WakeupPhase

variable {c : CondRef} {e : WakeEvent} {choice : Choice} {s s' : Store} {f : Fallback}
  {p p' : WakeupPhase}

/-- A wakeup that goes on leaves event `all` alone. -/
theorem aside_of_next (hinside : p ≠ entry) (hcond : s.conds.get c = .fallback f)
    (hstep : p.step c e choice s = .next s' p') :
    s.Aside c s' ∧ p' ≠ entry ∧ p' ≠ notify := by
  cases p with
  | entry => exact absurd rfl hinside
  | notify =>
    simp only [step, Store.withNative, hcond] at hstep
    cases hstep
  | _ =>
    simp only [step, Store.withFallback, hcond, Store.violate] at hstep
    (repeat' split at hstep) <;> cases hstep
    all_goals
      refine ⟨.of_write hcond ?_, by simp, by simp⟩
      rfl

/-- A wakeup ends when it has set its event, or opened the gate again. -/
theorem eq_of_done (hinside : p ≠ entry) (hcond : s.conds.get c = .fallback f)
    (hstep : p.step c e choice s = .done s' ()) : p = raise ∨ p = .reopen := by
  cases p with
  | entry => exact absurd rfl hinside
  | notify =>
    simp only [step, Store.withNative, hcond] at hstep
    cases hstep
  | raise => exact .inl rfl
  | reopen => exact .inr rfl
  | _ =>
    simp only [step, Store.withFallback, hcond, Store.violate] at hstep
    (repeat' split at hstep) <;> cases hstep

end WakeupPhase

namespace Machine

variable {m m' : Machine} {chosen later : CondRef → Option Tid}
  {deadline : Tid → Option Instant} {t : Tid} {c : CondRef} {e : WakeEvent} {p p' : WakeupPhase}
  {outer : List Call} {choice : Choice} {s : Store} {f : Fallback}

/-! ## A wakeup and its twin

The twin waits in front of its only step until the wakeup takes its last one. Then it removes from
the queue those that the event will wake. -/

/-- Whoever pends at a condition variable does so with a mutex. -/
theorem isPending_place {u : Tid} :
    (m.place c u).isPending = true ↔ ∃ l, m.pends u = some (c, l) := by
  constructor
  · intro h
    cases hplace : m.place c u with
    | waiting l d p =>
      rw [hplace] at h
      exact ⟨l, pends_iff.2 ⟨d, p, hplace, h⟩⟩
    | _ =>
      rw [hplace] at h
      cases h
  · rintro ⟨l, h⟩
    obtain ⟨d, p, hplace, hpending⟩ := pends_iff.1 h
    rw [hplace]
    exact hpending

/-- Thread `t` is in a wakeup, and its twin is about to notify. -/
structure Calls (m m' : Machine) (chosen : CondRef → Option Tid) (deadline : Tid → Option Instant)
    (t : Tid) (c : CondRef) (e : WakeEvent) (p : WakeupPhase) (outer : List Call) : Prop where
  agrees : m.Agrees chosen deadline m'
  regular : m.Regular
  get : m.calls.get t = .wakeup c e p :: outer
  inside : p ≠ .entry

namespace Calls

section

variable (h : m.Calls m' chosen deadline t c e p outer)
include h

theorem call? : m.call? t = some (.wakeup c e p) := call?_of_get h.get

theorem get' : m'.calls.get t = .wakeup c e .notify :: outer := by
  rw [h.agrees.get h.regular.sound h.get, Call.mirror]
  have hinside := h.inside
  cases p <;> first | rfl | contradiction

theorem place : m.place c t = .waking e p := by
  rw [Machine.place, see_of_call? h.call?, Call.place, if_pos rfl]
  have hinside := h.inside
  have hon := h.agrees.plain t _ (mem_of_call? h.call?)
  cases p <;> first | rfl | contradiction

theorem place_of_ne {d : CondRef} (hd : d ≠ c) : m.place d t = .outside := by
  rw [Machine.place, see_of_call? h.call?, Call.place, if_neg (Ne.symm hd)]

theorem idle : m.leaves t = none ∧ m.pends t = none :=
  ⟨see_of_call? h.call?, see_of_call? h.call?⟩

theorem takes : m.takes t = [] ∧ m'.takes t = [] := by
  have hwanted : m.wanted t = none := by rw [Machine.wanted, h.call?]
  have hwanted' : m'.wanted t = none := by rw [Machine.wanted, call?_of_get h.get']
  rw [Machine.takes, Machine.takes, hwanted, hwanted']
  exact ⟨rfl, rfl⟩

theorem stage : ∃ f st, m.store.conds.get c = .fallback f ∧
    Cycle st f (m.place c) (m.registered c) ∧ st.Allows t (Place.waking e p).role :=
  h.regular.stage_of_place h.place (by simp)

/-- The thread goes on, and its twin stays where it is. -/
theorem quiet (hstep : p.step c e choice m.store = .next s p') (haside : m.store.Aside c s)
    (hp' : p' ≠ .entry ∧ p' ≠ .notify) :
    Matched chosen m' (m.shows (.advance t choice)) (m.apply (.advance t choice)) := by
  have hcall : (Call.wakeup c e p).step t choice m.store = .next s (.wakeup c e p') := by
    simp only [Call.step, Call.lift, hstep, Progress.within]
  have hreports : m.reports t .working = [] := by
    simp [reports, h.takes.1, Notice.isShown]
  -- the calls below the wakeup are their own twins
  have hbodies := h.regular.sound.waiting t _ _ h.get
  have hleaves : Function.update m.leaves t none = m.leaves :=
    Function.update_eq_self_iff.2 h.idle.1.symm
  have hpends : Function.update m.pends t none = m.pends :=
    Function.update_eq_self_iff.2 h.idle.2.symm
  refine h.agrees.advance (deadline t) h.get (advance_of_next h.get hcall rfl)
    (hreports ▸ .refl m') (fun _ _ => rfl) ?_ ?_ ?_ ?_
  · rw [List.map_cons, Call.map_mirror hbodies, h.get', Call.mirror]
    cases p' <;> first | rfl | exact absurd rfl hp'.1
  · have hstore := h.agrees.store.aside haside
    rw [← hleaves, ← hpends] at hstore
    exact hstore
  · rintro _ ⟨⟩
    trivial
  · intro k hk
    rcases List.mem_cons.1 hk with rfl | hk
    · cases p' <;> first | rfl | exact absurd rfl hp'.2
    · exact h.agrees.plain t k (h.get ▸ List.mem_cons_of_mem _ hk)

theorem outer_idle {k : Call} (hk : outer.head? = some k) : k.leaves = none ∧ k.pends = none := by
  have hcalm : k.Calm := .body (h.regular.sound.waiting t _ _ h.get k (List.mem_of_mem_head? hk))
  exact Call.idle_of_outside hcalm.place

/-- The wakeup ends, and so does the twin's. -/
theorem notifies {f' : Fallback} {q' : NativeQueue} {pick : Nat}
    (hstep : p.step c e choice m.store = .done (m.store.setCond c (.fallback f')) ())
    (hstep' : WakeupPhase.notify.step c e ⟨pick, false⟩ m'.store =
      .done (m'.store.setCond c (.native q')) ())
    (hothers : ∀ d, d ≠ c → later d = chosen d) (hnodup : q'.waiters.Nodup)
    (hmem : ∀ u k, (u, k) ∈ q'.waiters ↔
      (m.pends u = some (c, k) ∧ later c ≠ some u) ∧ f'.events.all = false) :
    Matched later m' (m.shows (.advance t choice)) (m.apply (.advance t choice)) := by
  have hcall : (Call.wakeup c e p).step t choice m.store =
      .done (m.store.setCond c (.fallback f')) .nothing := by
    simp only [Call.step, Call.lift, hstep, Progress.within]
  have hcall' : (Call.wakeup c e .notify).step t ⟨pick, false⟩ m'.store =
      .done (m'.store.setCond c (.native q')) .nothing := by
    simp only [Call.step, Call.lift, hstep', Progress.within]
  have hallows' : m'.allows (.advance t ⟨pick, false⟩) = true := by
    rw [allows, call?_of_get h.get']
  have hbodies := h.regular.sound.waiting t _ _ h.get
  have hpends : Function.update m.pends t none = m.pends :=
    Function.update_eq_self_iff.2 h.idle.2.symm
  have hadvance' : m'.advance t ⟨pick, false⟩ = (⟨m'.store.setCond c (.native q'), m'.calls.set t
      (outer.map (Call.mirror ((m.store.setCond c (.fallback f')).ids.own.get t) (deadline t)))⟩,
      .replied .nothing) := by
    rw [Call.map_mirror hbodies]
    exact advance_of_done h.get' hcall'
  refine h.agrees.both h.get ⟨rfl, rfl⟩ hallows' (h.takes.2.trans h.takes.1.symm)
    (advance_of_done h.get hcall) hadvance' ?_ (fun k => h.outer_idle)
    fun k hk => h.agrees.plain t k (h.get ▸ List.mem_cons_of_mem _ hk)
  · -- thread `t` does not pend, before or after
    have hturn : Store.Twin m.leaves (Function.update m.pends t none) later
        (m.store.setCond c (.fallback f')) (m'.store.setCond c (.native q')) := by
      refine h.agrees.store.turn (fun d k hk => ?_) (by simp) hothers ⟨_, _, rfl⟩ ⟨_, rfl⟩
        (fun d hd => Table.get_set_of_ne _ _ hd) (fun d hd => Table.get_set_of_ne _ _ hd) ?_
      · cases h.idle.2.symm.trans hk
      · simp only [Store.setCond, Table.get_set_self, hpends]
        exact .portable hnodup hmem
    rwa [hpends] at hturn

end

/-- The machine after the wakeup has ended. -/
theorem apply_of_done (h : m.Calls m' chosen deadline t c e p outer)
    (hstep : p.step c e choice m.store = .done s ()) :
    m.apply (.advance t choice) = ⟨s, m.calls.set t outer⟩ := by
  have hcall : (Call.wakeup c e p).step t choice m.store = .done s .nothing := by
    simp only [Call.step, Call.lift, hstep, Progress.within]
  rw [apply, advance_of_done h.get hcall]

/-- The same threads sleep after the wakeup has ended. -/
theorem pends_of_done (h : m.Calls m' chosen deadline t c e p outer)
    (hstep : p.step c e choice m.store = .done s ()) :
    (m.apply (.advance t choice)).pends = m.pends := by
  rw [h.apply_of_done hstep]
  funext u
  rw [Machine.pends, see_set]
  split
  · subst u
    rw [h.idle.2]
    cases hhead : outer.head? with
    | none => rfl
    | some k => exact (h.outer_idle hhead).2
  · rfl

/-- The thread sets event `one`, and its twin removes whoever will see it. -/
theorem raiseOne (h : m.Calls m' chosen deadline t c .one .raise outer)
    (hchosen : chosen c = none) (hlater : (m.apply (.advance t choice)).Chooses later)
    (hothers : ∀ d, d ≠ c → later d = chosen d) :
    Matched later m' (m.shows (.advance t choice)) (m.apply (.advance t choice)) := by
  obtain ⟨f, st, hcond, hcycle, last, rfl⟩ := h.stage
  have hall : f.events.all = false := by
    rw [hcycle.events]
    rfl
  have hstep : WakeupPhase.raise.step c .one choice m.store =
      .done (m.store.setCond c (.fallback { f with events := f.events.put true .one })) () := by
    simp only [WakeupPhase.step, Store.withFallback, hcond]
  have hsignalled : (m.apply (.advance t choice)).signalled c = true := by
    rw [h.apply_of_done hstep]
    simp [signalled, Store.setCond, EventFlags.put]
  obtain ⟨q, hq, hnodup, hmem⟩ := h.agrees.queue hcond
  have hwaits (u : Tid) (k : LockRef) : (u, k) ∈ q.waiters ↔ m.pends u = some (c, k) := by
    simp [hmem, hchosen, hall]
  have hstep' (pick : Nat) : WakeupPhase.notify.step c .one ⟨pick, false⟩ m'.store =
      .done (m'.store.setCond c (.native (q.notifyOne pick))) () := by
    simp only [WakeupPhase.step, Store.withNative, hq]
  -- what the twin takes out of its queue now is whoever will see the event later
  cases hwoken : later c with
  | some v =>
    obtain ⟨-, hpending⟩ := hlater.sleeps c v hwoken
    obtain ⟨l, hl⟩ := isPending_place.1 hpending
    rw [h.pends_of_done hstep] at hl
    obtain ⟨pick, hpick⟩ := NativeQueue.exists_pick hnodup ((hwaits v l).2 hl)
    refine h.notifies hstep (hstep' pick) hothers (hnodup.sublist (List.eraseIdx_sublist ..)) ?_
    intro u k
    rw [hpick, hwaits, hwoken]
    constructor
    · rintro ⟨hu, hne⟩
      refine ⟨⟨hu, ?_⟩, hall⟩
      rintro ⟨⟩
      cases hl.symm.trans hu
      exact hne rfl
    · rintro ⟨⟨hu, hne⟩, -⟩
      refine ⟨hu, ?_⟩
      rintro ⟨⟩
      exact hne rfl
  | none =>
    have hnobody (u : Tid) (k : LockRef) : m.pends u ≠ some (c, k) := by
      intro hu
      rw [← h.pends_of_done hstep] at hu
      exact hlater.chooses c u hsignalled (isPending_place.2 ⟨k, hu⟩) hwoken
    have hempty : q.waiters = [] :=
      List.eq_nil_iff_forall_not_mem.2 fun w hw => hnobody w.1 w.2 ((hwaits w.1 w.2).1 hw)
    have hempty' := NativeQueue.notifyOne_of_empty hempty 0
    refine h.notifies hstep (hstep' 0) hothers (by rw [hempty']; exact List.nodup_nil) ?_
    intro u k
    simp [hempty', hnobody]

/-- The thread sets event `all`, and its twin removes everybody. -/
theorem raiseAll (h : m.Calls m' chosen deadline t c .all .raise outer) :
    Matched chosen m' (m.shows (.advance t choice)) (m.apply (.advance t choice)) := by
  obtain ⟨f, st, hcond, -⟩ := h.stage
  obtain ⟨q, hq, -⟩ := h.agrees.queue hcond
  have hstep : WakeupPhase.raise.step c .all choice m.store =
      .done (m.store.setCond c (.fallback { f with events := f.events.put true .all })) () := by
    simp only [WakeupPhase.step, Store.withFallback, hcond]
  have hstep' : WakeupPhase.notify.step c .all ⟨0, false⟩ m'.store =
      .done (m'.store.setCond c (.native q.notifyAll)) () := by
    simp only [WakeupPhase.step, Store.withNative, hq]
  refine h.notifies hstep hstep' (fun _ _ => rfl) List.nodup_nil fun u k => ?_
  simp [NativeQueue.notifyAll, NativeQueue.empty, EventFlags.put]

/-- The thread opens the gate after it has found nobody, and its twin finds nobody. -/
theorem reopen (h : m.Calls m' chosen deadline t c e .reopen outer)
    (hstep : WakeupPhase.reopen.step c e choice m.store = .done s ()) :
    Matched chosen m' (m.shows (.advance t choice)) (m.apply (.advance t choice)) := by
  obtain ⟨f, st, hcond, -⟩ := h.stage
  obtain ⟨q, hq, -, hmem⟩ := h.agrees.queue hcond
  have hnobody (u : Tid) (k : LockRef) : m.pends u ≠ some (c, k) := by
    intro hu
    have hregistered := registered_of_pends hu
    rw [h.regular.lonely c t e h.place u] at hregistered
    cases hregistered
  have hempty : q.waiters = [] :=
    List.eq_nil_iff_forall_not_mem.2 fun w hw => hnobody w.1 w.2 ((hmem w.1 w.2).1 hw).1.1
  -- with an empty queue either kind of wakeup removes nobody
  have hends : ∃ q', WakeupPhase.notify.step c e ⟨0, false⟩ m'.store =
      .done (m'.store.setCond c (.native q')) () ∧ q'.waiters = [] := by
    cases e with
    | one =>
      refine ⟨_, ?_, NativeQueue.notifyOne_of_empty hempty 0⟩
      simp only [WakeupPhase.step, Store.withNative, hq]
    | all =>
      refine ⟨q.notifyAll, ?_, rfl⟩
      simp only [WakeupPhase.step, Store.withNative, hq]
  obtain ⟨q', hstep', hempty'⟩ := hends
  have hdone := hstep
  simp only [WakeupPhase.step, Store.withFallback, hcond] at hdone
  split at hdone
  · cases hdone
    refine h.notifies hstep hstep' (fun _ _ => rfl) (by rw [hempty']; exact List.nodup_nil) ?_
    intro u k
    simp [hempty', hnobody]
  · cases hdone

/-- Unless the thread sets event `one`, the choice stays as it is. -/
theorem foresee_eq (h : m.Calls m' chosen deadline t c e p outer)
    (hraises : ¬ (e = .one ∧ p = .raise)) : m.foresee (.advance t choice) later = later := by
  funext d
  by_cases hd : d = c
  · subst hd
    simp only [foresee, h.place]
    cases p <;> cases e <;> first | rfl | exact absurd ⟨rfl, rfl⟩ hraises
  · simp only [foresee, h.place_of_ne hd]

/-- A step of a wakeup in the first machine. -/
theorem step
    (h : m.Calls m' (m.foresee (.advance t choice) later) deadline t c e p outer)
    (hroom : m.hasRoom c (.advance t choice) = true)
    (hlater : (m.apply (.advance t choice)).Chooses later) :
    Matched later m' (m.shows (.advance t choice)) (m.apply (.advance t choice)) := by
  obtain ⟨f, st, hcond, -⟩ := h.stage
  -- to set event `one` is the only step at which the choice of the woken thread matters
  by_cases hraises : e = .one ∧ p = .raise
  · obtain ⟨rfl, rfl⟩ := hraises
    refine h.raiseOne ?_ hlater fun d hd => ?_
    · simp only [foresee, h.place]
    · simp only [foresee, h.place_of_ne hd]
  have hsame := h
  rw [h.foresee_eq hraises] at hsame
  have hinside : m.place c t ≠ .outside := by simp [h.place]
  obtain ⟨hfault, habort⟩ := h.regular.step_ne_fault hroom hinside h.get
  have hcall : (Call.wakeup c e p).step t choice m.store =
      Call.lift (.wakeup c e) (fun _ => .nothing) (p.step c e choice m.store) := rfl
  cases hstep : p.step c e choice m.store with
  | blocked =>
    rw [hstep] at hcall
    simp only [shows, apply, advance_of_blocked h.get hcall, reports]
    exact hsame.agrees.matched
  | fault s why =>
    rw [hstep] at hcall
    exact absurd hcall (hfault s why)
  | abort s =>
    rw [hstep] at hcall
    exact absurd hcall (habort s)
  | next s p' =>
    obtain ⟨haside, hp'⟩ := WakeupPhase.aside_of_next h.inside hcond hstep
    exact hsame.quiet hstep haside hp'
  | done s reply =>
    rcases WakeupPhase.eq_of_done h.inside hcond hstep with rfl | rfl
    · cases e with
      | one => exact absurd ⟨rfl, rfl⟩ hraises
      | all => exact hsame.raiseAll
    · exact hsame.reopen hstep

end Calls

end Machine

end Interlock
