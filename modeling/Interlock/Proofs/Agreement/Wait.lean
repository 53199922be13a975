import Interlock.Proofs.Agreement.Joint
import Interlock.Proofs.Agreement.Sleeper

/-!
# Waiting on both backends

The inner steps of a wait, and what the twin does meanwhile.

  * `Machine.OneMutex`: whoever sleeps on a condition variable at the same time has released the
    same mutex, which the platform demands;
  * `Machine.Attends`: a thread is in a wait, and its twin in the phase that belongs to it;
  * `Machine.Attends.quiet`: the twin does not move;
  * `Machine.Attends.register`: the thread registers, and its twin comes into the queue and releases
    its mutex;
  * `Machine.Attends.leave`: the thread releases its mutex, as its twin has done before;
  * `Machine.Attends.wake`, `Machine.Attends.expire`: the thread sees an event or runs out of time,
    and its twin finds itself removed from the queue, or removes itself, and `Machine.Attends.look`:
    which of them it is;
  * `Machine.Attends.retake`, `Machine.Attends.regain`: both take their mutex back;
  * `Machine.Attends.step`: any of these steps.
-/

namespace Interlock

namespace Machine

variable {m m' m'' : Machine} {chosen later : CondRef → Option Tid}
  {deadline : Tid → Option Instant} {t : Tid} {c : CondRef} {l : LockRef}
  {timeout : Option Duration} {wrap : WaitPhase → Call}
  {finish : Store → Bool → Progress Call Reply} {p p' : FallbackWaitPhase} {outer : List Call}
  {choice : Choice} {s : Store} {f : Fallback}

/-! ## A wait and its twin

`Attends` collects what is known when a sleeper takes a step. Its conclusions are those facts that
more than one kind of step needs, and `Attends.follow` is the frame of them all: it says what is
left to show once the moves of the twin are known. -/

/-- The threads that sleep on a condition variable have released the same mutex. -/
def OneMutex (m : Machine) : Prop :=
  ∀ c t u l k, m.pends t = some (c, l) → m.pends u = some (c, k) → l = k

/-- Nobody leaves a mutex that is free, or that a thread has that does not leave it. -/
theorem Regular.leaves_ne (hregular : m.Regular) {k : LockState} (hlock : m.store.lock l = some k)
    (hholder : k.holder = none ∨ k.holder = some t) (ht : m.leaves t = none) (u : Tid) :
    m.leaves u ≠ some l := by
  intro hu
  obtain ⟨k', hk', hholds, -⟩ := holder_of_leaves hregular.identified (hregular.holds l) hu
  cases hlock.symm.trans hk'
  rcases hholder with hfree | htaken
  · cases hfree.symm.trans hholds
  · cases htaken.symm.trans hholds
    cases ht.symm.trans hu

/-- Thread `t` is in a wait, and so is its twin. -/
structure Attends (m m' : Machine) (chosen : CondRef → Option Tid) (deadline : Tid → Option Instant)
    (t : Tid) (c : CondRef) (l : LockRef) (timeout : Option Duration) (wrap : WaitPhase → Call)
    (finish : Store → Bool → Progress Call Reply) (p : FallbackWaitPhase) (outer : List Call) :
    Prop where
  agrees : m.Agrees chosen deadline m'
  regular : m.Regular
  waiter : Call.Waiter c l timeout wrap finish
  get : m.calls.get t = wrap (.fallback p) :: outer

namespace Attends

section

variable (h : m.Attends m' chosen deadline t c l timeout wrap finish p outer)
include h

theorem call? : m.call? t = some (wrap (.fallback p)) := call?_of_get h.get

theorem get' : m'.calls.get t =
    wrap (.native (p.mirror (m.store.ids.own.get t) (deadline t))) :: outer := by
  rw [h.agrees.get h.regular.sound h.get, h.waiter.mirror]
  rfl

theorem place : m.place c t = .waiting l timeout p := by
  rw [h.waiter.place_of_call? h.call?, if_pos rfl]

theorem known : m.store.ids.own.get t ≠ .nobody := h.regular.known c t l timeout p h.place

theorem leaves : m.leaves t = if p.isLeaving then some l else none := by
  rw [Machine.leaves, see_of_call? h.call?, h.waiter.leaves]
  rfl

theorem pends : m.pends t = if p.isPending then some (c, l) else none := by
  rw [Machine.pends, see_of_call? h.call?, h.waiter.pends]
  rfl

/-- Where thread `t` sleeps, if it sleeps. -/
theorem pends_at {d : CondRef} {k : LockRef} (hpends : m.pends t = some (d, k)) :
    d = c ∧ k = l := by
  rw [h.pends] at hpends
  split at hpends <;> cases hpends
  exact ⟨rfl, rfl⟩

theorem punctual : p.Punctual m.store.clock timeout (deadline t) := by
  have hpunctual := h.agrees.punctual t _ h.call?
  rwa [h.waiter.punctual] at hpunctual

theorem stage : ∃ f st, m.store.conds.get c = .fallback f ∧
    Cycle st f (m.place c) (m.registered c) ∧ st.Allows t (Place.waiting l timeout p).role :=
  h.regular.stage_of_place h.place (by simp)

/-- The thread goes on to its next phase, and the twin follows. -/
theorem follow (ends : Option Instant) (hstep : p.step t c l timeout m.store = .next s p')
    (hgoes : m'.Goes (if (WaitPhase.fallback p).isTaking then [.took t l] else []) m'')
    (hothers : ∀ u, u ≠ t → m''.calls.get u = m'.calls.get u)
    (hself : m''.calls.get t = wrap (.native (p'.mirror (s.ids.own.get t) ends)) :: outer)
    (hstore : s.Twin (Function.update m.leaves t (if p'.isLeaving then some l else none))
      (Function.update m.pends t (if p'.isPending then some (c, l) else none)) later m''.store)
    (hpunctual : p'.Punctual s.clock timeout ends) :
    Matched later m' (m.shows (.advance t choice)) (m.apply (.advance t choice)) := by
  have hphase : (WaitPhase.fallback p).step t c l timeout m.store = .next s (.fallback p') := by
    rw [WaitPhase.step, hstep]
    rfl
  have hreports : m.reports t .working =
      if (WaitPhase.fallback p).isTaking then [.took t l] else [] := by
    simp [reports, h.waiter.takes h.call?, Notice.isShown]
  -- the calls below the wait are their own twins
  have hbodies := h.regular.sound.waiting t _ _ h.get
  refine h.agrees.advance ends h.get (h.waiter.advance_next choice h.get hphase) (hreports ▸ hgoes)
    hothers ?_ ?_ ?_ ?_
  · rw [hself, List.map_cons, h.waiter.mirror, Call.map_mirror hbodies]
    rfl
  · simp only [List.head?_cons, Option.map_some, Option.getD_some, h.waiter.leaves, h.waiter.pends]
    exact hstore
  · rintro _ ⟨⟩
    rw [h.waiter.punctual]
    exact hpunctual
  · intro k hk
    rcases List.mem_cons.1 hk with rfl | hk
    · rw [h.waiter.isOn]
      rfl
    · exact h.agrees.plain t k (h.get ▸ List.mem_cons_of_mem _ hk)

/-- The thread goes on, and its twin stays where it is. -/
theorem stay (hstep : p.step t c l timeout m.store = .next s p')
    (htaking : (WaitPhase.fallback p).isTaking = false) (hids : s.ids = m.store.ids)
    (hclock : s.clock = m.store.clock) (hkeeps : p.Keeps m.store.clock timeout p')
    (hstore : s.Twin m.leaves m.pends chosen m'.store) :
    Matched chosen m' (m.shows (.advance t choice)) (m.apply (.advance t choice)) := by
  refine h.follow (deadline t) hstep (by rw [htaking]; exact .refl m') (fun _ _ => rfl) ?_ ?_ ?_
  · rw [hids, hkeeps.mirror]
    exact h.get'
  · rw [hkeeps.leaving, hkeeps.pending, ← h.leaves, ← h.pends, Function.update_eq_self,
      Function.update_eq_self]
    exact hstore
  · rw [hclock]
    exact hkeeps.punctual _ h.punctual

/-- A quiet step. -/
theorem quiet (hstep : p.step t c l timeout m.store = .next s p') (hquiet : p.isQuiet = true) :
    Matched chosen m' (m.shows (.advance t choice)) (m.apply (.advance t choice)) := by
  obtain ⟨f, st, hcond, -⟩ := h.stage
  have hmeets : (p.step t c l timeout m.store).Meets _ _ _ :=
    FallbackWaitPhase.step_quiet hquiet hcond h.known
  rw [hstep] at hmeets
  obtain ⟨haside, hkeeps⟩ := hmeets
  have htaking : (WaitPhase.fallback p).isTaking = false := by
    cases p with
    | locking p w => cases p <;> first | rfl | cases hquiet
    | _ => rfl
  have hstore := h.agrees.store.aside haside
  obtain ⟨conds, log, rfl⟩ := haside.rest
  exact h.stay hstep htaking rfl rfl hkeeps hstore

end

/-! ### The mutex is released

The mutex is free in the store of the twin. Clearing the owner word of the sleeper's mutex and
releasing it change a mutex in which the stores may differ; after the release they do not differ
there any more. -/

/-- The thread clears the owner word of the mutex that it leaves. -/
theorem disclaim (h : m.Attends m' chosen deadline t c l timeout wrap finish
      (.unlocking .disclaim) outer)
    (hstep : (FallbackWaitPhase.unlocking .disclaim).step t c l timeout m.store = .next s p') :
    Matched chosen m' (m.shows (.advance t choice)) (m.apply (.advance t choice)) := by
  have hnext := hstep
  simp only [FallbackWaitPhase.step, UnlockPhase.step, Store.withLock] at hnext
  split at hnext <;> cases hnext
  exact h.stay hstep rfl rfl rfl ⟨rfl, rfl, fun _ _ => rfl, fun _ hpunctual => hpunctual⟩
    (h.agrees.store.setLeft h.leaves _)

/-- The thread releases the mutex that it leaves. -/
theorem leave (h : m.Attends m' chosen deadline t c l timeout wrap finish (.unlocking .release)
      outer)
    (hstep : (FallbackWaitPhase.unlocking .release).step t c l timeout m.store = .next s p') :
    Matched chosen m' (m.shows (.advance t choice)) (m.apply (.advance t choice)) := by
  have hfits := (h.regular.holds l).grips t
  rw [(grip_of_waiting h.place h.regular.identified).1] at hfits
  have hlock : m.store.lock l = some ⟨some t, .nobody⟩ := hfits
  have hnext := hstep
  simp only [FallbackWaitPhase.step, UnlockPhase.step, Store.withLock, hlock] at hnext
  cases hnext
  refine h.follow (deadline t) hstep (.refl m') (fun _ _ => rfl) h.get' ?_ h.punctual
  have hstore := h.agrees.store.settle h.leaves
  have hpends := h.pends
  rwa [← Function.update_eq_self t m.pends, hpends] at hstore

/-! ### The events

A sleeper that sees an event, or whose time is up, does not pend any more. Its twin has been removed
from the queue by the wakeup that the sleeper now sees, or finds that its own time is up and removes
itself. -/

/-- The thread sees an event. Its twin is not in the queue any more. -/
theorem wake {own : Option Instant} {e : WakeEvent} {events : EventFlags}
    (h : m.Attends m' chosen deadline t c l timeout wrap finish (.parked own) outer)
    (hcond : m.store.conds.get c = .fallback f) (htake : f.events.take? = some (e, events))
    (hchosen : chosen c = some t ∨ chosen c = none ∧ f.events.all = true)
    (hlater : later c = none) (hothers : ∀ d, d ≠ c → later d = chosen d) :
    Matched later m' (m.shows (.advance t choice)) (m.apply (.advance t choice)) := by
  obtain ⟨q, hq, hnodup, hmem⟩ := h.agrees.queue hcond
  -- the choice, or event `all`, has taken the thread out of the queue already
  have hout : q.waiting t = false := by
    by_contra hwaiting
    obtain ⟨k, hk⟩ := NativeQueue.waiting_iff.1 (by simpa using hwaiting)
    obtain ⟨⟨-, hne⟩, hall⟩ := (hmem t k).1 hk
    rcases hchosen with hchosen | ⟨-, hset⟩
    · exact hne hchosen
    · cases hall.symm.trans hset
  have hstep : (FallbackWaitPhase.parked own).step t c l timeout m.store =
      .next (m.store.setCond c (.fallback { f with events := events })) (.depart (some e)) := by
    simp only [FallbackWaitPhase.step, Store.withFallback, hcond, htake]
  have hstep' : (NativeWaitPhase.queued (m.store.ids.own.get t) (deadline t)).step t c l timeout
      m'.store = .next m'.store (.retake (m.store.ids.own.get t) true) := by
    simp [NativeWaitPhase.step, Store.withNative, hq, hout]
  refine h.follow (deadline t) hstep (h.waiter.goes h.get' hstep')
    (fun u hu => Table.get_set_of_ne _ _ hu) (Table.get_set_self ..) ?_ trivial
  have hleaves : Function.update m.leaves t none = m.leaves := by
    rw [Function.update_eq_self_iff, h.leaves]
    rfl
  simp only [FallbackWaitPhase.isLeaving, FallbackWaitPhase.isPending, Bool.false_eq_true, if_false,
    hleaves]
  refine h.agrees.store.turn (fun d k hpends => (h.pends_at hpends).1) (by simp) hothers ⟨_, _, rfl⟩
    ⟨_, rfl⟩ (fun d hd => Table.get_set_of_ne _ _ hd) (fun _ _ => rfl) ?_
  simp only [Store.setCond, Table.get_set_self, hq]
  refine .portable hnodup fun u k => ?_
  rw [EventFlags.all_of_take htake, hlater]
  constructor
  · intro hk
    have hut : u ≠ t := by
      rintro rfl
      cases hout.symm.trans (NativeQueue.waiting_iff.2 ⟨k, hk⟩)
    obtain ⟨⟨hpends, -⟩, hall⟩ := (hmem u k).1 hk
    exact ⟨⟨(Function.update_of_ne hut ..).trans hpends, by simp⟩, hall⟩
  · rintro ⟨⟨hpends, -⟩, hall⟩
    have hut : u ≠ t := by
      rintro rfl
      rw [Function.update_self] at hpends
      cases hpends
    rw [Function.update_of_ne hut] at hpends
    refine (hmem u k).2 ⟨⟨hpends, ?_⟩, hall⟩
    rcases hchosen with hchosen | ⟨hchosen, -⟩ <;> rw [hchosen]
    · exact fun heq => hut (Option.some.inj heq).symm
    · simp

/-- The thread runs out of time. Its twin, which is in the queue, has run out of time too. -/
theorem expire {own : Option Instant}
    (h : m.Attends m' chosen deadline t c l timeout wrap finish (.parked own) outer)
    (hcond : m.store.conds.get c = .fallback f) (htake : f.events.take? = none)
    (hreached : m.store.clock.reached own = true) (hchosen : chosen c = none) :
    Matched chosen m' (m.shows (.advance t choice)) (m.apply (.advance t choice)) := by
  obtain ⟨q, hq, hnodup, hmem⟩ := h.agrees.queue hcond
  have hall : f.events.all = false := by
    cases hset : f.events.all with
    | false => rfl
    | true =>
      simp only [EventFlags.take?, hset] at htake
      split at htake <;> cases htake
  -- nobody has been chosen and no broadcast is under way, so the twin is still in the queue
  have hin : q.waiting t = true := by
    refine NativeQueue.waiting_iff.2 ⟨l, (hmem t l).2 ⟨⟨h.pends, ?_⟩, hall⟩⟩
    rw [hchosen]
    simp
  have hreached' : m'.store.clock.reached (deadline t) = true := by
    rw [h.agrees.store.clock]
    exact h.punctual.1.reached hreached
  have hstep : (FallbackWaitPhase.parked own).step t c l timeout m.store =
      .next m.store (.depart none) := by
    simp only [FallbackWaitPhase.step, Store.withFallback, hcond, htake, hreached, if_true]
  have hstep' : (NativeWaitPhase.queued (m.store.ids.own.get t) (deadline t)).step t c l timeout
      m'.store = .next (m'.store.setCond c (.native (q.remove t)))
        (.retake (m.store.ids.own.get t) false) := by
    simp [NativeWaitPhase.step, Store.withNative, hq, hin, hreached']
  refine h.follow (deadline t) hstep (h.waiter.goes h.get' hstep')
    (fun u hu => Table.get_set_of_ne _ _ hu) (Table.get_set_self ..) ?_ trivial
  have hleaves : Function.update m.leaves t none = m.leaves := by
    rw [Function.update_eq_self_iff, h.leaves]
    rfl
  simp only [FallbackWaitPhase.isLeaving, FallbackWaitPhase.isPending, Bool.false_eq_true, if_false,
    hleaves]
  refine h.agrees.store.turn (fun d k hpends => (h.pends_at hpends).1) (by simp) (fun _ _ => rfl)
    ⟨_, _, rfl⟩ ⟨_, rfl⟩ (fun _ _ => rfl) (fun d hd => Table.get_set_of_ne _ _ hd) ?_
  simp only [Store.setCond, Table.get_set_self, hcond]
  refine .portable (hnodup.sublist List.filter_sublist) fun u k => ?_
  simp only [NativeQueue.remove, List.mem_filter, bne_iff_ne, hmem]
  by_cases hut : u = t
  · subst hut
    simp
  · simp [hut]

/-- The last sleeper of a broadcast resets the event, while nobody sleeps. -/
theorem lower {w : Option WakeEvent}
    (h : m.Attends m' chosen deadline t c l timeout wrap finish (.lower w) outer) :
    Matched chosen m' (m.shows (.advance t choice)) (m.apply (.advance t choice)) := by
  obtain ⟨f, st, hcond, hcycle, hallows⟩ := h.stage
  obtain rfl : st = .lowering t := hallows
  -- only the last sleeper lowers the event, so nobody is left to see it
  have hempty : m.registered c = ∅ := hcycle.last
  have hnobody (u : Tid) (k : LockRef) : m.pends u ≠ some (c, k) := by
    intro hpends
    have hmem := (mem_registered h.regular.sound).2 (registered_of_pends hpends)
    rw [hempty] at hmem
    exact Finset.notMem_empty u hmem
  obtain ⟨q, hq, hnodup, hmem⟩ := h.agrees.queue hcond
  have hstep : (FallbackWaitPhase.lower w).step t c l timeout m.store =
      .next (m.store.setCond c (.fallback { f with events := f.events.put false .all }))
        (.retract w) := by
    simp only [FallbackWaitPhase.step, Store.withFallback, hcond]
  refine h.stay hstep rfl rfl rfl ⟨rfl, rfl, fun _ _ => rfl, fun _ hpunctual => hpunctual⟩ ?_
  rw [← Function.update_eq_self t m.pends]
  refine h.agrees.store.turn (fun d k hpends => (h.pends_at hpends).1)
    (fun d k hpends => (h.pends_at hpends).1) (fun _ _ => rfl) ⟨_, _, rfl⟩ ⟨_, rfl⟩
    (fun d hd => Table.get_set_of_ne _ _ hd) (fun _ _ => rfl) ?_
  rw [Function.update_eq_self]
  simp only [Store.setCond, Table.get_set_self, hq]
  refine .portable hnodup fun u k => ?_
  rw [hmem]
  simp only [hnobody, false_and]

/-! ### The queue

This is the step in which the twin gets ahead. It takes all the steps of a wait up to its sleep,
which show nothing, and for which its mutex has to be the one that the others in the queue have
released. -/

/-- A thread that begins to wait in the platform's queue comes into it, and releases its mutex. -/
theorem enqueues (hw : Call.Waiter c l timeout wrap finish) {q : NativeQueue}
    (hget : m.calls.get t = wrap (.native .entry) :: outer)
    (hlock : m.store.lock l = some ⟨some t, m.store.ids.own.get t⟩)
    (hknown : m.store.ids.own.get t ≠ .nobody) (hq : m.store.conds.get c = .native q)
    (haccepts : q.accepts l = true) :
    ∃ m', m.Goes [] m' ∧ (∀ u, u ≠ t → m'.calls.get u = m.calls.get u) ∧
      m'.calls.get t = wrap (.native (.queued (m.store.ids.own.get t)
        (m.store.clock.deadline (timeout.map Duration.truncated)))) :: outer ∧
      (∃ locks, m'.store =
        { m.store with conds := m.store.conds.set c (.native (q.enqueue t l)), locks := locks }) ∧
      m'.store.lock l = some .free ∧ ∀ j, j ≠ l → m'.store.lock j = m.store.lock j := by
  -- the four steps of the platform's wait up to its queue, each in the store that it finds
  have hentry : NativeWaitPhase.entry.step t c l timeout m.store =
      .next m.store (.check (m.store.ids.own.get t)) := by
    simp [NativeWaitPhase.step, hlock, Store.currentId_of_known hknown]
  have hcheck : (NativeWaitPhase.check (m.store.ids.own.get t)).step t c l timeout m.store =
      .next m.store (.disclaim (m.store.ids.own.get t)) := by
    simp [NativeWaitPhase.step, Store.withLock, hlock]
  have hdisclaim : (NativeWaitPhase.disclaim (m.store.ids.own.get t)).step t c l timeout m.store =
      .next (m.store.setLock l ⟨some t, .nobody⟩) (.enqueue (m.store.ids.own.get t)) := by
    simp [NativeWaitPhase.step, Store.withLock, hlock, LockState.claim]
  have hlock' : (m.store.setLock l ⟨some t, .nobody⟩).lock l = some ⟨some t, .nobody⟩ := by
    rw [Store.setLock, Store.Twin.lock_setMutex, if_pos rfl]
  have henqueue : (NativeWaitPhase.enqueue (m.store.ids.own.get t)).step t c l timeout
      (m.store.setLock l ⟨some t, .nobody⟩) =
      .next (((m.store.setLock l ⟨some t, .nobody⟩).setCond c
        (.native (q.enqueue t l))).setLock l .free) (.queued (m.store.ids.own.get t)
          (m.store.clock.deadline (timeout.map Duration.truncated))) := by
    have hq' : (m.store.setLock l ⟨some t, .nobody⟩).conds.get c = .native q := hq
    simp only [NativeWaitPhase.step, Store.withNative, hq', Store.withLock, hlock', haccepts,
      if_true]
    rfl
  have hgoes {s s' : Store} {calls : Table (List Call)} {p p' : NativeWaitPhase}
      (hget : calls.get t = wrap (.native p) :: outer)
      (htaking : (WaitPhase.native p).isTaking = false)
      (hstep : p.step t c l timeout s = .next s' p') :
      Goes ⟨s, calls⟩ [] ⟨s', calls.set t (wrap (.native p') :: outer)⟩ := by
    have hgoes := hw.goes (m := ⟨s, calls⟩) hget hstep
    rwa [htaking] at hgoes
  have hchecked : m.Goes [] _ :=
    (hgoes hget rfl hentry).trans (hgoes (Table.get_set_self ..) rfl hcheck)
  have hreleased := hchecked.trans
    ((hgoes (Table.get_set_self ..) rfl hdisclaim).trans
      (hgoes (Table.get_set_self ..) rfl henqueue))
  refine ⟨_, hreleased, ?_, Table.get_set_self .., ⟨_, rfl⟩, ?_, ?_⟩
  · intro u hu
    simp only [Table.get_set_of_ne _ _ hu]
  · rw [Store.setLock, Store.Twin.lock_setMutex, if_pos rfl]
  · intro j hj
    rw [Store.setLock, Store.Twin.lock_setMutex, if_neg hj]
    exact (Store.Twin.lock_setMutex ..).trans (if_neg hj)

/-- The thread registers. Its twin comes into the queue and releases its mutex. -/
theorem register (h : m.Attends m' chosen deadline t c l timeout wrap finish .register outer)
    (hstep : FallbackWaitPhase.register.step t c l timeout m.store = .next s p')
    (hchosen : chosen c = none) (hmutex : ∀ u k, m.pends u = some (c, k) → k = l) :
    Matched chosen m' (m.shows (.advance t choice)) (m.apply (.advance t choice)) := by
  obtain ⟨f, st, hcond, hcycle, hallows⟩ := h.stage
  obtain rfl : st = .entering t := hallows
  have hall : f.events.all = false := by
    rw [hcycle.events]
    rfl
  have hnext := hstep
  simp only [FallbackWaitPhase.step, Store.withFallback, hcond] at hnext
  -- neither failed check of the step has a next phase
  split at hnext
  · cases hnext
  split at hnext
  · cases hnext
  cases hnext
  have hidle : m.leaves t = none := h.leaves
  have hpends : m.pends t = none := h.pends
  have hfits := (h.regular.holds l).grips t
  rw [(grip_of_waiting h.place h.regular.identified).1] at hfits
  have hlock : m.store.lock l = some ⟨some t, m.store.ids.own.get t⟩ := hfits.1
  have hleft := h.regular.leaves_ne hlock (.inr rfl) hidle
  have hids := h.agrees.store.ids
  have hlock' : m'.store.lock l = some ⟨some t, m'.store.ids.own.get t⟩ := by
    rw [hids, h.agrees.store.locks l hleft, hlock]
  obtain ⟨q, hq, hnodup, hmem⟩ := h.agrees.queue hcond
  have hwaits (u : Tid) (k : LockRef) : (u, k) ∈ q.waiters ↔ m.pends u = some (c, k) := by
    rw [hmem, hchosen]
    simp [hall]
  -- everybody in the queue waits with this mutex
  have haccepts : q.accepts l = true := by
    refine List.all_eq_true.2 fun w hw => ?_
    exact beq_iff_eq.2 (hmutex w.1 w.2 ((hwaits w.1 w.2).1 hw))
  obtain ⟨m'', hgoes, hothers, hself, ⟨locks, hm''⟩, hfree, hkept⟩ :=
    enqueues h.waiter h.get' hlock' (hids ▸ h.known) hq haccepts
  rw [hids, h.agrees.store.clock] at hself
  refine h.follow _ hstep hgoes hothers hself ?_ ⟨.refl _, ?_⟩
  -- the condition variable first; then, on the twin's side, the mutex
  · have hturn : Store.Twin m.leaves (Function.update m.pends t (some (c, l))) chosen
        (m.store.setCond c (.fallback { f with word := f.word + 1 }))
        { m'.store with conds := m'.store.conds.set c (.native (q.enqueue t l)) } := by
      refine h.agrees.store.turn (fun d k heq => (h.pends_at heq).1) ?_ (fun _ _ => rfl)
        ⟨_, _, rfl⟩ ⟨_, rfl⟩ (fun d hd => Table.get_set_of_ne _ _ hd)
        (fun d hd => Table.get_set_of_ne _ _ hd) ?_
      · rintro d k ⟨⟩
        rfl
      · have hnew (k : LockRef) : (t, k) ∉ q.waiters := by
          rw [hwaits, hpends]
          simp
        simp only [Store.setCond, Table.get_set_self, hchosen]
        refine .portable ?_ fun u k => ?_
        · exact List.nodup_append_comm.1 (List.nodup_cons.2 ⟨hnew l, hnodup⟩)
        · by_cases hut : u = t
          · subst hut
            simp [NativeQueue.enqueue, hnew, hall, eq_comm]
          · simp [NativeQueue.enqueue, hwaits, hut, hall]
    exact hturn.vacate hidle ⟨locks, hm''⟩ hfree hkept
  · rintro rfl
    rfl

/-! ### The mutex is taken back

From here on both are in the same phases. The portable wait remembers which event it has seen, and
the platform's whether it was woken. -/

/-- What a locking thread has read as its identity is its identity. -/
theorem own {q : LockPhase} {w : Option WakeEvent} {me : ThreadId}
    (h : m.Attends m' chosen deadline t c l timeout wrap finish (.locking q w) outer)
    (hme : q.me? = some me) : m.store.ids.own.get t = me :=
  ((grip_of_waiting h.place h.regular.identified).2 me hme).1

/-- Both take the mutex. -/
theorem retake {me : ThreadId} {w : Option WakeEvent}
    (h : m.Attends m' chosen deadline t c l timeout wrap finish (.locking (.take me) w) outer)
    (hstep : (FallbackWaitPhase.locking (.take me) w).step t c l timeout m.store = .next s p') :
    Matched chosen m' (m.shows (.advance t choice)) (m.apply (.advance t choice)) := by
  obtain rfl := h.own rfl
  have hnext := hstep
  simp only [FallbackWaitPhase.step, LockPhase.step, Store.withLock] at hnext
  split at hnext
  · rename_i k hlock
    split at hnext
    · cases hnext
    rename_i hunlocked
    cases hnext
    have hfree : k.holder = none := by simpa [LockState.isLocked] using hunlocked
    -- a free mutex is not being left, so it is free in the second store too
    have hleft := h.regular.leaves_ne hlock (.inl hfree) h.leaves
    have hlock' : m'.store.lock l = some k := (h.agrees.store.locks l hleft).trans hlock
    have hstep' : (NativeWaitPhase.retake (m.store.ids.own.get t) w.isSome).step t c l timeout
        m'.store = .next (m'.store.setLock l (k.take t))
          (.claim (m.store.ids.own.get t) w.isSome) := by
      simp only [NativeWaitPhase.step, Store.withLock, hlock', hunlocked]
      rfl
    refine h.follow (deadline t) hstep (h.waiter.goes h.get' hstep')
      (fun u hu => Table.get_set_of_ne _ _ hu) (Table.get_set_self ..) ?_ trivial
    have hleaves : Function.update m.leaves t none = m.leaves :=
      Function.update_eq_self_iff.2 h.leaves.symm
    have hpends : Function.update m.pends t none = m.pends :=
      Function.update_eq_self_iff.2 h.pends.symm
    simp only [FallbackWaitPhase.isLeaving, FallbackWaitPhase.isPending, Bool.false_eq_true,
      if_false, hleaves, hpends]
    exact h.agrees.store.setLock hleft _
  · cases hnext

/-- Both write their identity into the owner word, and their waits end in the same way. -/
theorem regain {me : ThreadId} {w : Option WakeEvent}
    (h : m.Attends m' chosen deadline t c l timeout wrap finish (.locking (.claim me) w) outer) :
    Matched chosen m' (m.shows (.advance t choice)) (m.apply (.advance t choice)) := by
  obtain rfl := h.own rfl
  have hfits := (h.regular.holds l).grips t
  rw [(grip_of_waiting h.place h.regular.identified).1] at hfits
  have hlock : m.store.lock l = some ⟨some t, .nobody⟩ := hfits
  have hleft := h.regular.leaves_ne hlock (.inr rfl) h.leaves
  have hlock' : m'.store.lock l = some ⟨some t, .nobody⟩ :=
    (h.agrees.store.locks l hleft).trans hlock
  have hstep : (wrap (.fallback (.locking (.claim (m.store.ids.own.get t)) w))).step t choice
      m.store = finish (m.store.setLock l ⟨some t, m.store.ids.own.get t⟩) w.isSome := by
    rw [h.waiter.step]
    simp [WaitPhase.step, FallbackWaitPhase.step, LockPhase.step, Store.withLock, hlock,
      Progress.within, LockState.claim]
  have hstep' : (wrap (.native (.claim (m.store.ids.own.get t) w.isSome))).step t choice m'.store =
      finish (m'.store.setLock l ⟨some t, m.store.ids.own.get t⟩) w.isSome := by
    rw [h.waiter.step]
    simp [WaitPhase.step, NativeWaitPhase.step, Store.withLock, hlock', Progress.within,
      LockState.claim]
  have hstore := h.agrees.store.setLock hleft ⟨some t, m.store.ids.own.get t⟩
  have hget' := h.get'
  have hbodies := h.regular.sound.waiting t _ _ h.get
  -- either the call is over, or the loop evaluates its condition
  have hends : ∃ stack notice, (∀ k ∈ stack, k.atBody = true ∧ k.isOn .fallback = true) ∧
      m.advance t choice = (⟨m.store.setLock l ⟨some t, m.store.ids.own.get t⟩,
        m.calls.set t stack⟩, notice) ∧
      m'.advance t choice = (⟨m'.store.setLock l ⟨some t, m.store.ids.own.get t⟩,
        m'.calls.set t stack⟩, notice) := by
    have hplain (k : Call) (hk : k ∈ outer) : k.atBody = true ∧ k.isOn .fallback = true :=
      ⟨hbodies k hk, h.agrees.plain t k (h.get ▸ List.mem_cons_of_mem _ hk)⟩
    cases h.waiter with
    | plain =>
      exact ⟨outer, _, hplain, advance_of_done h.get hstep, advance_of_done hget' hstep'⟩
    | loop whole start =>
      refine ⟨_ :: outer, _, ?_, advance_of_next h.get hstep rfl, advance_of_next hget' hstep' rfl⟩
      intro k hk
      rcases List.mem_cons.1 hk with rfl | hk
      · exact ⟨rfl, rfl⟩
      · exact hplain k hk
  obtain ⟨stack, notice, hstack, hadvance, hadvance'⟩ := hends
  have hquiet (k : Call) (hk : stack.head? = some k) : k.leaves = none ∧ k.pends = none := by
    have hcalm : k.Calm := .body (hstack k (List.mem_of_mem_head? hk)).1
    exact Call.idle_of_outside hcalm.place
  have htakes' : m'.takes t = m.takes t := by
    rw [h.waiter.takes (call?_of_get hget'), h.waiter.takes h.call?]
    rfl
  refine h.agrees.both h.get ⟨h.waiter.leaves _, h.waiter.pends _⟩
    (h.waiter.allows (call?_of_get hget') choice) htakes' hadvance ?_ hstore hquiet
    fun k hk => (hstack k hk).2
  rw [Call.map_mirror fun k hk => (hstack k hk).1]
  exact hadvance'

/-! ### Any step

The cases are put together, one for each phase of the wait. -/

/-- Unless the thread sees event `one`, the choice stays as it is. -/
theorem foresee_eq (h : m.Attends m' chosen deadline t c l timeout wrap finish p outer)
    (hsees : ∀ own, p = .parked own → m.signalled c = false) :
    m.foresee (.advance t choice) later = later := by
  funext d
  simp only [foresee, h.waiter.place_of_call? h.call? d]
  by_cases hcd : c = d
  · subst hcd
    rw [if_pos rfl]
    cases p with
    | parked own => simp [hsees own rfl]
    | _ => rfl
  · rw [if_neg hcd]

/-- The machine after a step that goes on. -/
theorem apply_of_next (h : m.Attends m' chosen deadline t c l timeout wrap finish p outer)
    (choice : Choice) (hstep : p.step t c l timeout m.store = .next s p') :
    m.apply (.advance t choice) = ⟨s, m.calls.set t (wrap (.fallback p') :: outer)⟩ := by
  have hphase : (WaitPhase.fallback p).step t c l timeout m.store = .next s (.fallback p') := by
    rw [WaitPhase.step, hstep]
    rfl
  rw [apply, h.waiter.advance_next choice h.get hphase]

/-- Who sleeps after a step that goes on. -/
theorem pends_of_next (h : m.Attends m' chosen deadline t c l timeout wrap finish p outer)
    (choice : Choice) (hstep : p.step t c l timeout m.store = .next s p') (u : Tid) :
    (m.apply (.advance t choice)).pends u =
      if u = t then if p'.isPending then some (c, l) else none else m.pends u := by
  rw [h.apply_of_next choice hstep, Machine.pends, see_set]
  split
  · exact h.waiter.pends _
  · rfl

/-- A sleeper looks at the events and goes on: it sees event `one`, or event `all`, or it has run
out of time. -/
theorem look {own : Option Instant}
    (h : m.Attends m' (m.foresee (.advance t choice) later) deadline t c l timeout wrap finish
      (.parked own) outer)
    (hchooses : m.Chooses (m.foresee (.advance t choice) later))
    (hlater : (m.apply (.advance t choice)).Chooses later)
    (hstep : (FallbackWaitPhase.parked own).step t c l timeout m.store = .next s p') :
    Matched later m' (m.shows (.advance t choice)) (m.apply (.advance t choice)) := by
  obtain ⟨f, st, hcond, -⟩ := h.stage
  have hsees := signalled_of_cond hcond
  have hafter := h.apply_of_next choice hstep
  have hforesee (d : CondRef) : m.foresee (.advance t choice) later d =
      if c = d ∧ m.signalled d = true then some t else later d := by
    simp only [foresee, h.waiter.place_of_call? h.call? d]
    by_cases hcd : c = d
    · simp [hcd]
    · simp [hcd]
  have hothers (d : CondRef) (hd : d ≠ c) : later d = m.foresee (.advance t choice) later d := by
    rw [hforesee, if_neg fun hcd => hd hcd.1.symm]
  -- a sleeper looks at event `one` first, then at event `all`, then at its deadline
  rcases f.events.take_cases with ⟨hone, htake⟩ | ⟨hone, hall, htake⟩ | ⟨hone, -, htake⟩ <;>
    simp only [FallbackWaitPhase.step, Store.withFallback, hcond, htake] at hstep
  · cases hstep
    have hclear : (m.apply (.advance t choice)).signalled c = false := by
      rw [hafter]
      simp [signalled, Store.setCond]
    refine h.wake hcond htake (.inl ?_) (hlater.eq_none hclear) hothers
    rw [hforesee, if_pos ⟨rfl, hsees.trans hone⟩]
  · cases hstep
    have hclear : (m.apply (.advance t choice)).signalled c = false := by
      rw [hafter]
      simp [signalled, Store.setCond, hone]
    have hnone := hlater.eq_none hclear
    refine h.wake hcond htake (.inr ⟨?_, hall⟩) hnone hothers
    rw [hforesee, if_neg (by simp [hsees, hone]), hnone]
  · split at hstep
    · have hclear := hsees.trans hone
      have hsame : m.foresee (.advance t choice) later = later := h.foresee_eq fun _ _ => hclear
      rw [hsame] at h hchooses
      exact h.expire hcond htake ‹_› (hchooses.eq_none hclear)
    · cases hstep

/-- A sleeper that sleeps on has not seen event `one`. -/
theorem signalled_of_blocked {own : Option Instant}
    (h : m.Attends m' chosen deadline t c l timeout wrap finish (.parked own) outer)
    (hstep : (FallbackWaitPhase.parked own).step t c l timeout m.store = .blocked) :
    m.signalled c = false := by
  obtain ⟨f, st, hcond, -⟩ := h.stage
  rw [signalled_of_cond hcond]
  rcases f.events.take_cases with ⟨-, htake⟩ | ⟨hone, -⟩ | ⟨hone, -⟩
  · simp [FallbackWaitPhase.step, Store.withFallback, hcond, htake] at hstep
  · exact hone
  · exact hone

/-- A step of a wait in the first machine. -/
theorem step (h : m.Attends m' (m.foresee (.advance t choice) later) deadline t c l timeout wrap
      finish p outer)
    (hroom : m.hasRoom c (.advance t choice) = true)
    (hchooses : m.Chooses (m.foresee (.advance t choice) later))
    (hlater : (m.apply (.advance t choice)).Chooses later)
    (hmutex : (m.apply (.advance t choice)).OneMutex) :
    Matched later m' (m.shows (.advance t choice)) (m.apply (.advance t choice)) := by
  have hinside : m.place c t ≠ .outside := by simp [h.place]
  obtain ⟨hfault, habort⟩ := h.regular.step_ne_fault hroom hinside h.get
  have hcall := h.waiter.step t choice m.store (.fallback p)
  -- unless a sleeper finds event `one` set, nothing was foreseen for this move
  have hsame (hsees : ∀ own, p = .parked own → m.signalled c = false) :
      m.Attends m' later deadline t c l timeout wrap finish p outer := by
    rwa [h.foresee_eq hsees] at h
  cases hstep : p.step t c l timeout m.store with
  | blocked =>
    rw [WaitPhase.step, hstep] at hcall
    simp only [shows, apply, advance_of_blocked h.get hcall, reports]
    refine (hsame ?_).agrees.matched
    rintro own rfl
    exact h.signalled_of_blocked hstep
  | fault s why =>
    rw [WaitPhase.step, hstep] at hcall
    exact absurd hcall (hfault s why)
  | abort s =>
    rw [WaitPhase.step, hstep] at hcall
    exact absurd hcall (habort s)
  | done s woken =>
    obtain ⟨me, w, rfl⟩ := FallbackWaitPhase.claim_of_done hstep
    exact (hsame (by simp)).regain
  | next s p' =>
    -- the twin moves where a thread comes into the queue, leaves it, or takes the mutex
    cases p with
    | register =>
      rw [h.foresee_eq (by simp)] at hchooses
      have hnone := hchooses.eq_none (h.regular.signalled_of_register h.place)
      have hafter := h.pends_of_next choice hstep
      obtain rfl := FallbackWaitPhase.handBack_of_register hstep
      refine (hsame (by simp)).register hstep hnone fun u k hu => ?_
      have hut : u ≠ t := by
        rintro rfl
        cases h.pends.symm.trans hu
      exact hmutex c u t k l (by rw [hafter, if_neg hut, hu]) (by rw [hafter, if_pos rfl]; rfl)
    | unlocking p =>
      cases p with
      | disclaim => exact (hsame (by simp)).disclaim hstep
      | release => exact (hsame (by simp)).leave hstep
      | _ => exact (hsame (by simp)).quiet hstep rfl
    | parked own => exact h.look hchooses hlater hstep
    | lower w => exact (hsame (by simp)).lower
    | locking p w =>
      cases p with
      | take me => exact (hsame (by simp)).retake hstep
      | claim me => exact (hsame (by simp)).regain
      | _ => exact (hsame (by simp)).quiet hstep rfl
    | _ => exact (hsame (by simp)).quiet hstep rfl

end Attends

end Machine

end Interlock
