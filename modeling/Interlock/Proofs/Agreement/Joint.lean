import Interlock.Proofs.Agreement.Pair

/-!
# Joint moves

The moves that a machine and its twin make together: whatever clients do, and the steps of joint
calls.

  * `Machine.Agrees.joint`: a step of a joint call;
  * `Machine.Agrees.client`: a move of a client.

The steps themselves have been compared in `Call.step_twins`. What is left is around them: both
machines have to allow the move, show the same of it, and belong together afterwards. A joint call
sleeps nowhere before and after its step, so who leaves a mutex and who pends stays as it is
(`Machine.update_idle`), and one lemma, `Machine.Agrees.both`, serves the joint calls and the last
steps of wakeups alike.
-/

namespace Interlock

/-! ## Calls that look the same in both machines

A joint call and its twin differ in the backend that an initialization names, and in nothing
else. -/

namespace Call

variable {call : Call}

/-- The twin of a joint call is the same call. -/
theorem mirror_of_joint (hjoint : call.isJoint = true) (me : ThreadId)
    (deadline : Option Instant) : call.mirror me deadline = call.onNative := by
  cases call with
  | wakeup c e p =>
    obtain rfl : p = .entry := by simpa [isJoint] using hjoint
    rfl
  | wait c l timeout p => cases p <;> first | rfl | cases hjoint
  | waitWhile c l timeout p =>
    cases p with
    | waiting start rest p => cases p <;> first | rfl | cases hjoint
    | _ => rfl
  | _ => rfl

/-- On the platform's backend a fresh call is one of a program on that backend. -/
theorem isOn_onNative (hfresh : call.isFresh = true) (hon : call.isOn .fallback = true) :
    call.onNative.isOn .native = true := by
  cases call with
  | wakeup c e p =>
    obtain rfl : p = .entry := by simpa [isFresh] using hfresh
    rfl
  | wait c l timeout p =>
    obtain rfl : p = .entry := by simpa [isFresh] using hfresh
    rfl
  | waitWhile c l timeout p =>
    obtain rfl : p = .begin := by simpa [isFresh] using hfresh
    rfl
  | initCond => rfl
  | _ => exact hon

/-- What a call goes on with after code of its client's works with the same backend. -/
theorem isOn_resume {backend : Backend} {e : BodyEnd} (hbody : call.atBody = true)
    (hon : call.isOn backend = true) : (call.resume e).isOn backend = true := by
  cases call with
  | waitWhile c l timeout p =>
    cases p with
    | test start => rcases e with ⟨_ | _⟩ | why <;> rfl
    | _ => cases hbody
  | _ => exact hon

/-- A call that begins is a joint one. -/
theorem isJoint_of_fresh (h : call.isFresh = true) : call.isJoint = true := by
  cases call with
  | wait c l timeout p =>
    obtain rfl : p = .entry := by simpa [isFresh] using h
    rfl
  | waitWhile c l timeout p =>
    obtain rfl : p = .begin := by simpa [isFresh] using h
    rfl
  | wakeup c e p => exact h
  | _ => rfl

/-- A joint call is at no condition variable. -/
theorem place_of_joint (h : call.isJoint = true) (c : CondRef) : call.place c = .outside := by
  cases call with
  | wakeup d e p =>
    obtain rfl : p = .entry := by simpa [isJoint] using h
    simp [place, WakeupPhase.place]
  | wait d l timeout p =>
    cases p with
    | fallback p => cases h
    | _ => simp [place, WaitPhase.place]
  | waitWhile d l timeout p =>
    cases p with
    | waiting start rest p =>
      cases p with
      | fallback p => cases h
      | _ => simp [place, WaitWhilePhase.place, WaitPhase.place]
    | _ => simp [place, WaitWhilePhase.place]
  | _ => rfl

/-- A call that is at no condition variable does not sleep. -/
theorem idle_of_outside (h : ∀ c, call.place c = .outside) :
    call.leaves = none ∧ call.pends = none := by
  have hpends : call.pends = none := by
    cases hpends : call.pends with
    | none => rfl
    | some w =>
      obtain ⟨timeout, p, hplace, -⟩ := pends_iff.1 hpends
      rw [h] at hplace
      cases hplace
  refine ⟨?_, hpends⟩
  cases hleaves : call.leaves with
  | none => rfl
  | some l =>
    obtain ⟨c, hsome, -⟩ := pends_of_leaves hleaves
    cases hpends.symm.trans hsome

/-- A program that works with mutexes and condition variables spawns no threads in its calls. -/
theorem child?_of_isOn {backend : Backend} (h : call.isOn backend = true) :
    call.child? = none := by
  cases call <;> first | rfl | cases h

/-- Only a call that pends has to be punctual. -/
theorem punctual_of_pends (h : call.pends = none) (now : Instant) (deadline : Option Instant) :
    call.Punctual now deadline := by
  have hwait {c : CondRef} {l : LockRef} {p : WaitPhase} (timeout : Option Duration)
      (h : (if p.isPending then some (c, l) else none) = none) :
      p.Punctual now timeout deadline := by
    have hpending : ¬ p.isPending = true := by
      intro hp
      rw [if_pos hp] at h
      cases h
    cases p with
    | fallback p =>
      cases p <;> first
        | exact absurd rfl hpending
        | trivial
    | _ => trivial
  cases call with
  | wait c l timeout p => exact hwait timeout h
  | waitWhile c l timeout p =>
    cases p with
    | waiting start rest p => exact hwait rest h
    | _ => trivial
  | _ => trivial

end Call

/-! ## What clients do with a store

Clients create objects, spawn and end threads, and let time pass. New objects have the same handles
in both stores, since a twin has created as many as the machine it belongs to. -/

section

variable {leaves : Tid → Option LockRef} {pends : Tid → Option (CondRef × LockRef)}
  {chosen : CondRef → Option Tid} {s s' : Store}

/-- Both stores give out the same handle. -/
theorem Store.Twin.takeHandle (h : s.Twin leaves pends chosen s') :
    s.takeHandle.1.Twin leaves pends chosen s'.takeHandle.1 ∧
      s'.takeHandle.2 = s.takeHandle.2 := by
  obtain ⟨_, _, _, rfl⟩ := h.rest
  exact ⟨⟨⟨_, _, _, rfl⟩, h.locks, h.left, h.conds⟩, rfl⟩

/-- A mutex is added to both stores, -/
theorem Store.Twin.addMutex (h : s.Twin leaves pends chosen s')
    (hl : ∀ u, leaves u ≠ some s.nextHandle) (m : Mutex) :
    (s.addMutex m).1.Twin leaves pends chosen (s'.addMutex m).1 ∧
      (s'.addMutex m).2 = (s.addMutex m).2 := by
  obtain ⟨htwin, hhandle⟩ := h.takeHandle
  simp only [Store.addMutex, hhandle]
  exact ⟨htwin.setMutex hl m, trivial⟩

/-- a condition variable is, -/
theorem Store.Twin.addCond (h : s.Twin leaves pends chosen s') {cond cond' : Condition}
    (hcond : cond.Twin (fun t l => pends t = some (s.nextHandle, l) ∧ chosen s.nextHandle ≠ some t)
      cond') :
    (s.addCond cond).1.Twin leaves pends chosen (s'.addCond cond').1 ∧
      (s'.addCond cond').2 = (s.addCond cond).2 := by
  obtain ⟨htwin, hhandle⟩ := h.takeHandle
  simp only [Store.addCond, hhandle]
  exact ⟨htwin.setCond hcond, trivial⟩

/-- a monitor over a mutex is, each with its own backend, -/
theorem Store.Twin.addMonitorOver (h : s.Twin leaves pends chosen s')
    (hpends : ∀ u l, pends u ≠ some (s.nextHandle, l)) (l : LockRef) :
    (s.addMonitorOver l .fallback).1.Twin leaves pends chosen (s'.addMonitorOver l .native).1 := by
  have hcond := h.addCond (Condition.twin_new fun u k hwaits => hpends u k hwaits.1)
  simp only [Store.addMonitorOver]
  generalize s.addCond (.new .fallback) = added at hcond
  generalize s'.addCond (.new .native) = added' at hcond
  obtain ⟨s₁, c⟩ := added
  obtain ⟨s₁', c'⟩ := added'
  obtain ⟨htwin, hc⟩ := hcond
  obtain rfl : c' = c := hc
  obtain ⟨htwin, hmo⟩ := htwin.takeHandle
  simp only [hmo]
  generalize s₁.takeHandle.1 = s₂ at htwin
  generalize s₁'.takeHandle.1 = s₂' at htwin
  obtain ⟨_, _, _, rfl⟩ := htwin.rest
  exact ⟨⟨_, _, _, rfl⟩, htwin.locks, htwin.left, htwin.conds⟩

/-- and a thread is. -/
theorem Store.Twin.addOsThread (h : s.Twin leaves pends chosen s') (creator : Tid) :
    (s.addOsThread creator none).1.Twin leaves pends chosen (s'.addOsThread creator none).1 := by
  obtain ⟨_, _, _, rfl⟩ := h.rest
  exact ⟨⟨_, _, _, rfl⟩, h.locks, h.left, h.conds⟩

theorem Store.Twin.endThread (h : s.Twin leaves pends chosen s') (t : Tid) (ending : Ending) :
    (s.endThread t ending).Twin leaves pends chosen (s'.endThread t ending) := by
  obtain ⟨_, _, _, rfl⟩ := h.rest
  exact ⟨⟨_, _, _, rfl⟩, h.locks, h.left, h.conds⟩

/-- Time passes in both stores. -/
theorem Store.Twin.tick (h : s.Twin leaves pends chosen s') (n : Nat) :
    Store.Twin leaves pends chosen { s with clock := s.clock.advance n }
      { s' with clock := s'.clock.advance n } := by
  obtain ⟨_, _, _, rfl⟩ := h.rest
  exact ⟨⟨_, _, _, rfl⟩, h.locks, h.left, h.conds⟩

/-- A client creates the same object in both stores. -/
theorem Store.Twin.create (h : s.Twin leaves pends chosen s') {c : Creation}
    (hon : c.isOn .fallback = true) (hleaves : ∀ l, s.nextHandle ≤ l → ∀ u, leaves u ≠ some l)
    (hpends : ∀ d, s.nextHandle ≤ d → ∀ u l, pends u ≠ some (d, l)) :
    (c.apply s).Twin leaves pends chosen (c.onNative.apply s') := by
  cases c with
  | mutex ready => exact (h.addMutex (hleaves _ (Nat.le_refl _)) _).1
  | condition => exact (h.addCond .raw).1
  | monitor backend =>
    obtain rfl : backend = .fallback := by simpa [Creation.isOn] using hon
    obtain ⟨htwin, hlock⟩ := h.addMutex (hleaves _ (Nat.le_refl _)) .ready
    simp only [Creation.apply, Creation.onNative, Store.addMonitor, hlock]
    exact htwin.addMonitorOver (hpends _ (Nat.le_succ _)) _
  | _ => cases hon

end

namespace Machine

variable {m m' : Machine} {chosen later : CondRef → Option Tid} {deadline : Tid → Option Instant}
  {t : Tid} {call call' : Call} {outer : List Call} {s : Store} {choice : Choice} {β : Type}

/-! ## Joint calls

Both machines take the step, and it shows the same in both. What remains is to see that the machines
meet the conditions under which stores go the same way: nobody sleeps on a condition variable that
is not initialized, and nobody leaves a mutex that is destroyed. -/

theorem wanted_onNative (hcall : m.call? t = some call) (hcall' : m'.call? t = some call.onNative)
    (honces : m'.store.onces = m.store.onces) : m'.wanted t = m.wanted t := by
  rw [wanted, wanted, hcall, hcall', honces]
  cases call <;> rfl

/-- Nobody sleeps on a condition variable that is not initialized. -/
theorem Regular.pends_of_raw (hregular : m.Regular) {c : CondRef}
    (hraw : m.store.conds.get c = .raw) (u : Tid) (l : LockRef) : m.pends u ≠ some (c, l) := by
  intro hpends
  obtain ⟨timeout, p, hplace, -⟩ := pends_iff.1 hpends
  rw [(hregular.orderly c).other (by simp [hraw])] at hplace
  cases hplace

/-- Nobody leaves a mutex that is destroyed. -/
theorem Regular.leaves_of_unused (hregular : m.Regular) {o : Object} (hunused : m.unused o = true)
    {l : LockRef} (hl : .mutex l ∈ o.parts m.store) (u : Tid) : m.leaves u ≠ some l := by
  intro hleaves
  obtain ⟨c, -, timeout, p, hplace, -⟩ := pends_of_leaves hleaves
  have hnot {call : Call} (hcall : m.call? u = some call) :
      .mutex l ∉ call.objects m.store :=
    not_mem_objects hregular.sound hunused hl (mem_of_call? hcall)
  rcases call?_of_waiting hplace with hcall | ⟨whole, start, hcall⟩
  · exact hnot hcall (by simp [Call.objects])
  · exact hnot hcall (by simp [Call.objects])

/-- A portable condition variable that is destroyed is at rest. -/
theorem Regular.quiescent_of_unused (hregular : m.Regular) {o : Object}
    (hunused : m.unused o = true) {c : CondRef} {f : Fallback}
    (hc : .condition c ∈ o.parts m.store) (hcond : m.store.conds.get c = .fallback f) :
    f.isQuiescent = true := by
  have hplace := hregular.sound.place_of_unused hunused hc
  obtain ⟨st, hcycle⟩ := (hregular.orderly c).portable f hcond
  obtain rfl : st = .calm := by
    by_contra hcalm
    obtain ⟨u, hinside, -⟩ := hcycle.exists_not_stuck hcalm
    exact hinside (hplace u)
  have hempty : m.registered c = ∅ := by
    ext u
    simp [mem_registered hregular.sound, hplace, Place.isRegistered]
  have hword : f.word = 0 := by
    rw [← UInt32.toNat_inj, hcycle.word, hempty]
    rfl
  rw [Fallback.isQuiescent, hword, hcycle.gate]
  rfl

/-- The steps of a joint call in both machines belong together. -/
theorem Agrees.step_twins (h : m.Agrees chosen deadline m') (hregular : m.Regular)
    (hallows : m.allows (.advance t choice) = true) (hcall : m.call? t = some call)
    (hjoint : call.isJoint = true) :
    (call.step t choice m.store).Twins (Store.Twin m.leaves m.pends chosen) Call.Paired
      (call.onNative.step t choice m'.store) := by
  have hidle : m.leaves t = none := by
    rw [leaves, see_of_call? hcall]
    exact (Call.idle_of_outside (Call.place_of_joint hjoint)).1
  rw [← Call.mirror_of_joint hjoint (m.store.ids.own.get t) (deadline t)]
  refine Call.step_twins h.store (foreign hregular.identified hregular.holds hidle)
    (hregular.identified.owns hcall) ?_ (fun c => hregular.pends_of_raw) ?_
    (h.plain t call (mem_of_call? hcall)) hjoint
  · intro l
    have hfits := (hregular.holds l).grips t
    rwa [grip, see_of_call? hcall] at hfits
  · rintro o unwinding rfl
    have hunused : m.unused o = true := by simpa [allows, hcall] using hallows
    exact ⟨fun u l hl => hregular.leaves_of_unused hunused hl u,
      fun c f hc hcond => hregular.quiescent_of_unused hunused hc hcond⟩

/-- What is seen of a thread that sleeps nowhere, before and after. -/
theorem update_idle {f : Call → Option β} {stack : List Call}
    (hidle : ∀ k, m.call? t = some k → f k = none)
    (hapart : ∀ k, stack.head? = some k → f k = none) :
    Function.update (m.see f none) t ((stack.head?.map f).getD none) = m.see f none := by
  rw [Function.update_eq_self_iff, see_eq hidle]
  cases hhead : stack.head? with
  | none => rfl
  | some k => exact hapart k hhead

/-- Both machines change the calls of a thread that sleeps nowhere, before and after. -/
theorem Agrees.set_idle (h : m.Agrees chosen deadline m') (t : Tid) (stack : List Call) {s' : Store}
    (hidle : ∀ k, m.call? t = some k → k.leaves = none ∧ k.pends = none)
    (hapart : ∀ k, stack.head? = some k → k.leaves = none ∧ k.pends = none)
    (hown : ∀ u, u ≠ t → s.ids.own.get u = m.store.ids.own.get u)
    (hclock : s.clock = m.store.clock) (hstore : s.Twin m.leaves m.pends chosen s')
    (hplain : ∀ k ∈ stack, k.isOn .fallback = true) :
    Agrees chosen deadline ⟨s, m.calls.set t stack⟩
      ⟨s', m'.calls.set t (stack.map (Call.mirror (s.ids.own.get t) (deadline t)))⟩ := by
  have hleaves : Function.update m.leaves t _ = m.leaves :=
    update_idle (fun k hk => (hidle k hk).1) fun k hk => (hapart k hk).1
  have hpends : Function.update m.pends t _ = m.pends :=
    update_idle (fun k hk => (hidle k hk).2) fun k hk => (hapart k hk).2
  have hset : Agrees chosen (Function.update deadline t (deadline t)) _
      ⟨s', m'.calls.set t (stack.map (Call.mirror (s.ids.own.get t) (deadline t)))⟩ :=
    h.set _ hown hclock (fun u hu => Table.get_set_of_ne _ _ hu) (Table.get_set_self ..)
      (by rw [hleaves, hpends]; exact hstore)
      (fun k hk => Call.punctual_of_pends (hapart k hk).2 _ _) hplain
  rwa [Function.update_eq_self] at hset

/-- Both machines take a step that shows the same, of a thread that sleeps nowhere, before and
after. -/
theorem Agrees.both (h : m.Agrees chosen deadline m') {choice' : Choice} {s' : Store}
    {stack : List Call} {notice : Notice} (hget : m.calls.get t = call :: outer)
    (hidle : call.leaves = none ∧ call.pends = none)
    (hallows' : m'.allows (.advance t choice') = true) (htakes : m'.takes t = m.takes t)
    (hadvance : m.advance t choice = (⟨s, m.calls.set t stack⟩, notice))
    (hadvance' : m'.advance t choice' =
      (⟨s', m'.calls.set t (stack.map (Call.mirror (s.ids.own.get t) (deadline t)))⟩, notice))
    (hstore : s.Twin m.leaves m.pends later s')
    (hapart : ∀ k, stack.head? = some k → k.leaves = none ∧ k.pends = none)
    (hplain : ∀ k ∈ stack, k.isOn .fallback = true) :
    Matched later m' (m.shows (.advance t choice)) (m.apply (.advance t choice)) := by
  have hgoes := Goes.move hallows' rfl
  simp only [shows, apply, reports, htakes, hadvance'] at hgoes
  have hidle' (k : Call) (hk : m.call? t = some k) : k.leaves = none ∧ k.pends = none := by
    cases (call?_of_get hget).symm.trans hk
    exact hidle
  -- a thread that sleeps nowhere does not change who leaves and who pends
  have hleaves : Function.update m.leaves t _ = m.leaves :=
    update_idle (fun k hk => (hidle' k hk).1) fun k hk => (hapart k hk).1
  have hpends : Function.update m.pends t _ = m.pends :=
    update_idle (fun k hk => (hidle' k hk).2) fun k hk => (hapart k hk).2
  refine h.advance (deadline t) hget hadvance hgoes (fun u hu => Table.get_set_of_ne _ _ hu)
    (Table.get_set_self ..) ?_ ?_ hplain
  · rw [hleaves, hpends]
    exact hstore
  · intro k hk
    exact Call.punctual_of_pends (hapart k hk).2 _ _

/-- Both machines take a step of a joint call. -/
theorem Agrees.joint (h : m.Agrees chosen deadline m') (hregular : m.Regular)
    (hallows : m.allows (.advance t choice) = true) (hget : m.calls.get t = call :: outer)
    (hjoint : call.isJoint = true) :
    Matched chosen m' (m.shows (.advance t choice)) (m.apply (.advance t choice)) := by
  have hcall := call?_of_get hget
  have hget' : m'.calls.get t = call.onNative :: outer :=
    Call.mirror_of_joint hjoint (m.store.ids.own.get t) (deadline t) ▸ h.get hregular.sound hget
  have hcall' := call?_of_get hget'
  have htakes : m'.takes t = m.takes t := by
    obtain ⟨_, _, _, heq⟩ := h.store.rest
    rw [takes, takes, wanted_onNative hcall hcall' (by rw [heq])]
  have hallows' : m'.allows (.advance t choice) = true := by
    simp only [allows, hcall] at hallows
    simp only [allows, hcall']
    cases call with
    | destroy o unwinding => exact (h.unused o).trans hallows
    | _ => rfl
  have hidle := Call.idle_of_outside (Call.place_of_joint hjoint)
  have houter := hregular.sound.waiting t call outer hget
  have hplain (k : Call) (hk : k ∈ outer) : k.isOn .fallback = true :=
    h.plain t k (hget ▸ List.mem_cons_of_mem call hk)
  -- however a call ends, the calls below it are the same in both machines
  have hlast {s s' : Store} {notice : Notice}
      (hadvance : m.advance t choice = (⟨s, m.calls.set t outer⟩, notice))
      (hadvance' : m'.advance t choice = (⟨s', m'.calls.set t outer⟩, notice))
      (hstore : s.Twin m.leaves m.pends chosen s') :
      Matched chosen m' (m.shows (.advance t choice)) (m.apply (.advance t choice)) := by
    refine h.both hget hidle hallows' htakes hadvance ?_ hstore ?_ hplain
    · rw [Call.map_mirror houter]
      exact hadvance'
    · intro k hk
      have hcalm : k.Calm := .body (houter k (List.mem_of_mem_head? hk))
      exact Call.idle_of_outside hcalm.place
  -- blocked, on to the next phase, done, a panic, the end of the process: the twin's step is of the
  -- same kind
  rcases (h.step_twins hregular hallows hcall hjoint).inv with hstep |
    ⟨s, k, s', k', hstep, hstep', hstore, hpaired⟩ | ⟨s, s', reply, hstep, hstep', hstore⟩ |
    ⟨s, s', why, hstep, hstep', hstore⟩ | ⟨s, s', hstep, hstep', hstore⟩
  · simp only [shows, apply, advance_of_blocked hget hstep, reports]
    exact h.matched
  · have hchild : k.child? = none := Call.child?_of_isOn hpaired.isOn
    have hmirror := hpaired.mirror (s.ids.own.get t) (deadline t)
    have hbody : k'.atBody = k.atBody := hmirror ▸ Call.atBody_mirror
    have hchild' : k'.child? = none := by
      rw [hmirror]
      cases k <;> first | rfl | exact hchild
    refine h.both hget hidle hallows' htakes (advance_of_next hget hstep hchild) ?_ hstore ?_ ?_
    · rw [List.map_cons, Call.map_mirror houter, ← hmirror, ← hbody]
      exact advance_of_next hget' hstep' hchild'
    · rintro _ ⟨⟩
      exact ⟨hpaired.leaves, hpaired.pends⟩
    · intro j hj
      rcases List.mem_cons.1 hj with rfl | hj
      · exact hpaired.isOn
      · exact hplain j hj
  · exact hlast (advance_of_done hget hstep) (advance_of_done hget' hstep') hstore
  · exact hlast (advance_of_fault hget hstep) (advance_of_fault hget' hstep') hstore
  · exact hlast (advance_of_abort hget hstep) (advance_of_abort hget' hstep') hstore

/-! ## Moves of clients

The same move is made in both machines, with the twin's backend where it names one. Nobody falls
asleep or wakes up in it, so the choice and the deadlines stay as they are. -/

/-- Both machines change their stores and no calls. -/
theorem Agrees.restore (h : m.Agrees chosen deadline m') {s' : Store}
    (hown : s.ids.own = m.store.ids.own) (hclock : m.store.clock.nanos ≤ s.clock.nanos)
    (hstore : s.Twin m.leaves m.pends chosen s') :
    Agrees chosen deadline ⟨s, m.calls⟩ ⟨s', m'.calls⟩ where
  store := hstore
  calls u := by
    rw [hown]
    exact h.calls u
  punctual u k hk := (h.punctual u k hk).mono hclock
  plain := h.plain

/-- Whoever runs code of its client's sleeps nowhere. -/
theorem idle_of_inClient (h : m.inClient t = true) {k : Call} (hk : m.call? t = some k) :
    k.leaves = none ∧ k.pends = none := by
  simp only [inClient, hk, Option.all_some, Bool.and_eq_true] at h
  have hcalm : k.Calm := .body h.2
  exact Call.idle_of_outside hcalm.place

/-- A thread begins a call in both machines. -/
theorem Agrees.begin (h : m.Agrees chosen deadline m')
    (hallows : m.allows (.begin t call) = true) (hon : call.isOn .fallback = true) :
    Matched chosen m' (m.shows (.begin t call)) (m.apply (.begin t call)) := by
  simp only [allows, Bool.and_eq_true] at hallows
  obtain ⟨⟨hclient, hfresh⟩, hknows⟩ := hallows
  have hallows' : m'.allows (.begin t call.onNative) = true := by
    have hfresh' : call.onNative.isFresh = true := by cases call <;> exact hfresh
    have hknows' : m.knows call.onNative = true := by cases call <;> exact hknows
    simp only [allows, h.inClient, hclient, hfresh', h.knows, hknows', Bool.and_self]
  have hgoes := Goes.move hallows' (Call.isOn_onNative hfresh hon)
  -- a call that begins sleeps nowhere
  have hcalm : call.Calm := .fresh hfresh
  have hshows : m'.shows (.begin t call.onNative) = m.shows (.begin t call) := by
    cases call <;> rfl
  rw [hshows] at hgoes
  have hset := h.set_idle t (call :: m.calls.get t) (fun _ => idle_of_inClient hclient) ?_
    (fun _ _ => rfl) rfl h.store ?_
  · rw [List.map_cons, ← h.calls, Call.mirror_of_joint (Call.isJoint_of_fresh hfresh)] at hset
    exact ⟨_, _, hgoes, hset⟩
  · rintro _ ⟨⟩
    exact Call.idle_of_outside hcalm.place
  · intro k hk
    rcases List.mem_cons.1 hk with rfl | hk
    · exact hon
    · exact h.plain t k hk

/-- The code that a call runs ends in both machines. -/
theorem Agrees.endBody {e : BodyEnd} (h : m.Agrees chosen deadline m') (hsound : m.Sound)
    (hallows : m.allows (.endBody t e) = true) :
    Matched chosen m' (m.shows (.endBody t e)) (m.apply (.endBody t e)) := by
  simp only [allows] at hallows
  cases hget : m.calls.get t with
  | nil =>
    rw [Machine.call?, hget] at hallows
    cases hallows
  | cons call outer =>
    have hcall := call?_of_get hget
    have hbody : call.atBody = true := by rwa [hcall] at hallows
    have hcalm : call.Calm := .body hbody
    have hcalm' : (call.resume e).Calm := .resumed e hbody
    -- the twin is in the same body, above the same calls
    have houter := hsound.waiting t call outer hget
    have hget' : m'.calls.get t = call :: outer := by
      rw [h.get hsound hget, Call.mirror_of_body hbody]
    have hallows' : m'.allows (.endBody t e) = true := by
      rw [allows, call?_of_get hget']
      exact hbody
    have hgoes := Goes.move hallows' rfl
    have hset := h.set_idle t (call.resume e :: outer) ?_ ?_ (fun _ _ => rfl) rfl h.store ?_
    · rw [List.map_cons, Call.map_mirror houter, Call.resume_mirror e hbody] at hset
      rw [apply, endBody_of_get hget'] at hgoes
      rw [apply, endBody_of_get hget]
      exact ⟨_, _, hgoes, hset⟩
    · intro k hk
      cases hcall.symm.trans hk
      exact Call.idle_of_outside hcalm.place
    · rintro _ ⟨⟩
      exact Call.idle_of_outside hcalm'.place
    · intro k hk
      rcases List.mem_cons.1 hk with rfl | hk
      · exact Call.isOn_resume hbody (h.plain t call (mem_of_call? hcall))
      · exact h.plain t k (hget ▸ List.mem_cons_of_mem call hk)

/-- Nobody sleeps on an object to be, nor leaves a mutex to be. -/
theorem Regular.pends_of_new (hregular : m.Regular) {c : Nat} (hc : m.store.nextHandle ≤ c)
    (u : Tid) (l : LockRef) : m.pends u ≠ some (c, l) := by
  intro hpends
  obtain ⟨timeout, p, hplace, -⟩ := pends_iff.1 hpends
  rw [hregular.sound.place_of_new hc] at hplace
  cases hplace

/-- Nobody leaves a mutex to be. -/
theorem Regular.leaves_of_new (hregular : m.Regular) {l : Nat} (hl : m.store.nextHandle ≤ l)
    (u : Tid) : m.leaves u ≠ some l := by
  intro hleaves
  obtain ⟨c, -, timeout, p, hplace, -⟩ := pends_of_leaves hleaves
  have hnot {call : Call} (hcall : m.call? u = some call) (hmem : .mutex l ∈ call.objects m.store) :
      False := by
    have hlt := Call.handle_lt_of_knows (hregular.sound.known u call (mem_of_call? hcall)) hmem
    exact Nat.not_lt.2 hl hlt
  rcases call?_of_waiting hplace with hcall | ⟨whole, start, hcall⟩
  · exact hnot hcall (by simp [Call.objects])
  · exact hnot hcall (by simp [Call.objects])

/-- A client creates the same object in both machines, a monitor with the backend of the machine. -/
theorem Agrees.create {c : Creation} (h : m.Agrees chosen deadline m') (hregular : m.Regular)
    (hon : c.isOn .fallback = true) :
    Matched chosen m' (m.shows (.create c)) (m.apply (.create c)) := by
  have hallows' : m'.allows (.create c.onNative) = true := by
    cases c <;> first | rfl | cases hon
  have hon' : (Move.create c.onNative).isOn .native = true := by
    cases c <;> first | rfl | cases hon
  have hshows : m'.shows (.create c.onNative) = m.shows (.create c) := by cases c <;> rfl
  have hgoes := Goes.move hallows' hon'
  rw [hshows] at hgoes
  refine ⟨deadline, _, hgoes, h.restore ?_ ?_ ?_⟩
  · cases c <;> first | rfl | cases hon
  · cases c <;> first | exact Int.le_refl _ | cases hon
  · exact h.store.create hon (fun l => hregular.leaves_of_new) fun d => hregular.pends_of_new

/-- Both machines make a move of a client's. -/
theorem Agrees.client {move : Move} (h : m.Agrees chosen deadline m') (hregular : m.Regular)
    (hallows : m.allows move = true) (hon : move.isOn .fallback = true)
    (hmove : ∀ t choice, move ≠ .advance t choice) :
    Matched chosen m' (m.shows move) (m.apply move) := by
  cases move with
  | begin t call => exact h.begin hallows hon
  | advance t choice => exact absurd rfl (hmove t choice)
  | endBody t e => exact h.endBody hregular.sound hallows
  | create c => exact h.create hregular hon
  | spawn creator =>
    have hallows' : m'.allows (.spawn creator) = true := (h.inClient creator).trans hallows
    exact ⟨deadline, _, Goes.move hallows' rfl,
      h.restore rfl (Int.le_refl _) (h.store.addOsThread creator)⟩
  | exit t ending =>
    have hallows' : m'.allows (.exit t ending) = true := by
      rw [← hallows, allows, allows, h.lives, h.calls, List.isEmpty_map]
    exact ⟨deadline, _, Goes.move hallows' rfl,
      h.restore rfl (Int.le_refl _) (h.store.endThread t ending)⟩
  | tick n =>
    have hallows' : m'.allows (.tick n) = true := rfl
    exact ⟨deadline, _, Goes.move hallows' rfl,
      h.restore rfl (Instant.le_advance _ n) (h.store.tick n)⟩

end Machine

end Interlock
