import Interlock.Proofs.Depth
import Interlock.Proofs.Exclusion

/-!
# The tenant of a run-once gate

A thread is a tenant of a gate from the moment it has the platform lock of the gate's mutex to the
moment it releases that. Only the calls on the gate work on this mutex, so there is one tenant at
most, however deep on its thread's stack; and a tenant's phase and the gate's flag agree.

  * `Tenure`: what a step does to a thread's tenancy and to the platform lock;
  * `Machine.Guarded`: the thread of a tenant stands in the platform lock, and all phases fit the
    flag; `Guarded.change`: every move keeps this;
  * `Run.Gate.guarded`: so it is in every run, from the gate's creation on.

The mutex is what keeps tenants apart: another tenant, on the same thread or on a different one,
would have to take a platform lock that is taken. That a callback may call the gate again does no
harm, since such a call never becomes a tenant.
-/

namespace Interlock

/-! ## Tenants

A run-once gate has a flag and a mutex, and only its own calls use the mutex. Who has the mutex is
told by the phases of the calls on the gate: a call is a tenant from the step that takes the
platform lock to the one that releases it, while it runs the client's callback in particular.
Nothing about owner words is needed here, except that a tenant that unlocks does not fail. -/

/-- Whether a thread in this phase has the platform lock that it is locking. -/
def LockPhase.isTenant : LockPhase → Bool
  | claim _ => true
  | _ => false

/-- Whether a thread in this phase has the gate's mutex. -/
def OncePhase.isTenant : OncePhase → Bool
  | fast => false
  | locking p => p.isTenant
  | recheck | callback | complete | unlocking _ _ => true

/-- What a tenant's phase says about the gate's flag. -/
def OncePhase.Fits (completed : Bool) : OncePhase → Prop
  | callback | complete | unlocking _ (.failed _) | unlocking _ (.panicked _) => completed = false
  | unlocking _ .passed => completed = true
  | _ => True

/-- What a step of thread `t` makes of its tenancy and of the thread in the platform lock. -/
inductive Tenure (t : Tid) : Bool → Option Tid → Bool → Option Tid → Prop
  | keep {tenant : Bool} {holder : Option Tid} : Tenure t tenant holder tenant holder
  | take : Tenure t false none true (some t)
  | leave {holder : Option Tid} : Tenure t true holder false none

theorem OncePhase.Fits.of_outside {p : OncePhase} (h : p.isTenant = false) (completed : Bool) :
    p.Fits completed := by
  cases p <;> trivial

variable {t : Tid} {o : OnceRef} {l : LockRef} {s : Store} {choice : Choice}

namespace Tenure

variable {u : Tid} {before after : Bool} {holder holder' : Option Tid}

/-- A tenant had the lock before, or has just taken it. -/
theorem holds (h : Tenure t before holder true holder')
    (hbefore : before = true → holder = some t) :
    holder' = some t := by
  cases h with
  | keep => exact hbefore rfl
  | take => rfl

/-- A thread in the lock stays there, unless the one that takes the step leaves. -/
theorem stays (h : Tenure t before holder after holder') (hholder : holder = some u) :
    holder' = some u ∨ before = true := by
  cases h with
  | keep => exact .inl hholder
  | take => cases hholder
  | leave => exact .inr rfl

/-- Nobody becomes a tenant while a thread stands in the lock. -/
theorem before_of_after (h : Tenure t before holder true holder') (hholder : holder = some u) :
    before = true := by
  cases h with
  | keep => rfl
  | take => cases hholder

end Tenure

/-- Locking makes a tenant of its thread in the step that takes the platform lock. -/
theorem LockPhase.step_tenures (p : LockPhase) :
    (p.step t l s).Meets
      (fun s' p' => Tenure t p.isTenant (s.holder l) p'.isTenant (s'.holder l))
      (fun s' _ => Tenure t p.isTenant (s.holder l) true (s'.holder l))
      (fun s' => Tenure t p.isTenant (s.holder l) false (s'.holder l)) := by
  cases p with
  | entry =>
    simp only [step, Store.violate]
    split <;> exact .keep
  | check me =>
    apply Progress.Meets.withLock
    intro k hk
    split <;> exact .keep
  | take me =>
    apply Progress.Meets.withLock
    intro k hk
    split
    · trivial
    · -- the step is taken only where nobody holds the mutex
      have hfree : s.holder l = none :=
        (Store.holder_of_lock hk).trans (LockState.holder_of_not_isLocked ‹_›)
      rw [hfree]
      change Tenure t false none true (Store.holder _ l)
      rw [Store.holder_setLock]
      exact .take
  | claim me =>
    apply Progress.Meets.withLock
    intro k hk
    change Tenure t true (s.holder l) true (Store.holder _ l)
    rw [Store.holder_setLock, Store.holder_of_lock hk]
    exact .keep

/-- A tenant that unlocks stays one until it has released the platform lock. -/
theorem UnlockPhase.step_tenures (p : UnlockPhase) :
    (p.step t l s).Meets (fun s' _ => s'.holder l = s.holder l) (fun s' _ => s'.holder l = none)
      (fun _ => True) := by
  cases p with
  | entry =>
    simp only [step, Store.violate]
    split
    · trivial
    · exact rfl
  | check me =>
    apply Progress.Meets.withLock
    intro k hk
    split
    · exact rfl
    · trivial
  | disclaim =>
    apply Progress.Meets.withLock
    intro k hk
    exact Store.holder_setLock.trans (Store.holder_of_lock hk).symm
  | release =>
    apply Progress.Meets.withLock
    intro k hk
    exact Store.holder_setLock

/-- What becomes of the tenancy in a step on a gate with mutex `l`. -/
def Progress.Tenures {ρ : Type} (t : Tid) (l : LockRef) (s : Store) (tenant : Bool) :
    Progress OncePhase ρ → Prop :=
  Meets (fun s' p => Tenure t tenant (s.holder l) p.isTenant (s'.holder l))
    (fun s' _ => Tenure t tenant (s.holder l) false (s'.holder l))
    (fun s' => Tenure t tenant (s.holder l) false (s'.holder l))

/-- A step on a gate takes the mutex, releases it, or leaves the tenancy as it is. -/
theorem OncePhase.step_tenures (p : OncePhase)
    (hunlock : ∀ q finish, p = unlocking q finish →
      (q.step t (s.onces.get o).lock s).Succeeds) :
    (p.step t o s).Tenures t (s.onces.get o).lock s p.isTenant := by
  cases p with
  | locking q =>
    refine q.step_tenures.within (fun _ _ hs => hs) (fun _ _ hs => hs) fun _ hs => hs
  | callback => trivial
  | complete => exact .keep
  | unlocking q finish =>
    have htenures := q.step_tenures.and (hunlock q finish rfl)
    refine (htenures.whileUnwinding finish.panic?).within ?_ ?_ fun _ hs => hs.2.elim
    · intro s' p' hs
      rw [hs.1]
      exact .keep
    · intro s' _ hs
      have hleaves : Tenure t true (s.holder (s.onces.get o).lock) false
          (s'.holder (s.onces.get o).lock) := hs.1 ▸ .leave
      exact .passOn hleaves hleaves finish.panic?
  | _ =>
    simp only [step]
    split <;> exact .keep

/-- The phases that follow fit the flag, as a step leaves it. -/
theorem OncePhase.step_fits {p : OncePhase} (h : p.Fits (s.onces.get o).completed) :
    (p.step t o s).Meets (fun s' p' => p'.Fits (s'.onces.get o).completed) (fun _ _ => True)
      (fun _ => True) := by
  cases p with
  | fast =>
    simp only [step]
    split <;> trivial
  | locking q =>
    exact Progress.Meets.within q.step_apart (fun _ _ _ => trivial) (fun _ _ _ => trivial)
      fun _ _ => trivial
  | recheck =>
    simp only [step]
    split
    · exact ‹_›
    · exact eq_false_of_ne_true ‹_›
  | callback => trivial
  | complete =>
    simp only [step]
    change (((s.setOnce o _).onces.get o).completed) = true
    simp [Store.setOnce]
  | unlocking q finish =>
    refine Progress.Meets.within (q.step_apart.whileUnwinding finish.panic?) ?_
      (fun _ _ _ => .passOn trivial trivial _) fun _ _ => trivial
    intro s' q' hs
    rw [hs.onces]
    cases finish <;> exact h

/-! ## The gate and its tenant

`Guarded` is the invariant. A move is a step of a call on the gate, the end of a callback, or
neither; in the first case the tenancy turns as the platform lock does (`Tenure`), so a second
tenant would need the lock while the first one is in it. -/

/-- The flag of a gate. -/
def Store.completed (s : Store) (o : OnceRef) : Bool := (s.onces.get o).completed

/-- Only the step that completes a gate changes its flag. -/
theorem Call.step_completed {call : Call} (h : call ≠ .once o .complete) :
    (call.step t choice s).Keeps fun s' => s'.completed o = s.completed o := by
  by_cases hcomplete : ∃ o', call = .once o' .complete
  · obtain ⟨o', rfl⟩ := hcomplete
    have ho : o ≠ o' := by
      rintro rfl
      exact h rfl
    exact congrArg Once.completed (Table.get_set_of_ne _ _ ho)
  · refine (step_onces fun o' heq => hcomplete ⟨o', heq⟩).imp ?_
    intro s' hs
    rw [Store.completed, hs]
    rfl

namespace Machine

variable {m m' : Machine} {move : Move} {u : Tid} {d : Nat} {p : OncePhase}

/-- Gate `o` has mutex `l`, on which nothing works but calls on the gate. -/
structure Keeps (m : Machine) (o : OnceRef) (l : LockRef) : Prop where
  gate : (m.store.onces.get o).lock = l
  known : o < m.store.nextHandle
  secret : ∀ t, ∀ call ∈ m.calls.get t, .mutex l ∈ call.objects m.store → ∃ p, call = .once o p

/-- The thread of a tenant stands in the platform lock of the gate's mutex, which has one tenant at
most; and all phases fit the flag. -/
structure Guarded (m : Machine) (o : OnceRef) (l : LockRef) : Prop extends m.Keeps o l where
  holds : ∀ t d p, m.frame t d = some (.once o p) → p.isTenant = true →
    m.store.holder l = some t
  single : ∀ t d d' p p', m.frame t d = some (.once o p) → p.isTenant = true →
    m.frame t d' = some (.once o p') → p'.isTenant = true → d = d'
  fits : ∀ t d p, m.frame t d = some (.once o p) → p.Fits (m.store.completed o)

/-- What a move is for gate `o` with mutex `l`. -/
inductive GateEvent (m : Machine) (o : OnceRef) (l : LockRef) (move : Move) (m' : Machine) : Prop
  /-- A call on the gate takes a step. -/
  | step {t : Tid} {choice : Choice} {p : OncePhase} {outer : List Call}
    (hmove : move = .advance t choice) (hget : m.calls.get t = .once o p :: outer)
  /-- A callback ends. -/
  | resume {t : Tid} {e : BodyEnd} {outer : List Call} (hmove : move = .endBody t e)
    (hget : m.calls.get t = .once o .callback :: outer)
  /-- Neither; and if the mutex goes away, then no call works on it. -/
  | other (hflag : m'.store.completed o = m.store.completed o)
    (hholder : m'.store.holder l = m.store.holder l ∨
      ∀ t, ∀ call ∈ m.calls.get t, .mutex l ∉ call.objects m.store)
    (hframe : ∀ t d p, m'.frame t d = some (.once o p) →
      m.frame t d = some (.once o p) ∨ p = .fast)

/-- A call on a gate stays one on the same gate. -/
theorem once_of_next {call : Call} {s' : Store}
    (hstep : call.step t choice s = .next s' (.once o p)) : ∃ q, call = .once o q := by
  have horigin := Call.origin_of_step hstep
  cases call <;> cases horigin
  exact ⟨_, rfl⟩

/-- A call that a body resumes on a gate ran the callback of the gate. -/
theorem once_of_resume {call : Call} {e : BodyEnd} (hbody : call.atBody = true)
    (h : call.resume e = .once o p) : call = .once o .callback := by
  cases call <;> cases h
  rename_i q
  cases q <;> first | rfl | cases hbody

/-- Only a step that completes the gate raises its flag. -/
theorem Change.completed (hchange : m.Change move m') (ho : o < m.store.nextHandle)
    (hmove : ∀ t choice outer, move = .advance t choice →
      m.calls.get t ≠ .once o .complete :: outer) :
    m'.store.completed o = m.store.completed o := by
  refine hchange.keeps (P := fun s' => s'.completed o = m.store.completed o)
    (fun s' hgrows => congrArg Once.completed (hgrows.onces o ho)) ?_
  intro t choice call hadvance hcall _
  obtain ⟨outer, hget⟩ := List.head?_eq_some_iff.1 hcall
  exact Call.step_completed fun heq => hmove t choice outer hadvance (heq ▸ hget)

/-- Every move is one of the three. -/
theorem gateEvent (hchange : m.Change move m') (hsound : m.Sound) (hevent : m.LockEvent l move m')
    (hkeeps : m.Keeps o l) : m.GateEvent o l move m' := by
  by_cases hstep : ∃ t choice p outer, move = .advance t choice ∧
      m.calls.get t = .once o p :: outer
  · obtain ⟨t, choice, p, outer, hmove, hget⟩ := hstep
    exact .step hmove hget
  by_cases hresume : ∃ t e outer, move = .endBody t e ∧ m.calls.get t = .once o .callback :: outer
  · obtain ⟨t, e, outer, hmove, hget⟩ := hresume
    exact .resume hmove hget
  refine .other ?_ ?_ ?_
  · refine hchange.completed hkeeps.known ?_
    intro t choice outer hmove hget
    exact hstep ⟨t, choice, _, outer, hmove, hget⟩
  · cases hevent with
    | @step t choice hmove hmoves _ hdoes =>
      refine .inl ?_
      have hdeed : m.deed l t = .keep := by
        apply Decidable.byContradiction
        intro hdeed
        have hpart : m.part l t ≠ .aside := by
          intro hpart
          rw [deed, hpart] at hdeed
          exact hdeed rfl
        -- only a call on the gate is in the code of its mutex
        obtain ⟨call, outer, hget, heq⟩ := call?_of_part hpart
        obtain ⟨p, rfl⟩ := hkeeps.secret t call (hget ▸ List.mem_cons_self)
          (Call.mem_objects_of_part (heq ▸ hpart))
        exact hstep ⟨t, choice, p, outer, hmove, hget⟩
      rw [hdeed] at hdoes
      exact hdoes
    | idle _ hsame => exact .inl (Store.holder_congr hsame)
    | renew hunused => exact .inr hunused
  · intro t d p hframe
    cases hchange.turned hsound hframe with
    | kept hkept => exact .inl hkept
    | begun _ hfresh _ _ => exact .inr (by simpa [Call.isFresh] using hfresh)
    | resumed hmove hget hbody _ hcall _ =>
      cases once_of_resume hbody hcall.symm
      exact absurd ⟨_, _, _, hmove, hget⟩ hresume
    | next hmove hget _ hnext =>
      obtain ⟨q, rfl⟩ := once_of_next hnext
      exact absurd ⟨_, _, _, _, hmove, hget⟩ hstep
    | born _ hcall => cases hcall

/-- Clients that leave the gate's mutex alone keep it the gate's own. -/
theorem Keeps.change (hkeeps : m.Keeps o l) (hchange : m.Change move m') (hsound : m.Sound)
    (hclient : ∀ t call, move = .begin t call → .mutex l ∈ call.objects m.store →
      ∃ p, call = .once o p) : m'.Keeps o l := by
  obtain ⟨hhandle, hgates⟩ := hchange.handles
  refine ⟨(hgates o hkeeps.known).trans hkeeps.gate, Nat.lt_of_lt_of_le hkeeps.known hhandle, ?_⟩
  intro t call' hcall' hmem
  obtain ⟨d, hd⟩ := List.mem_iff_getElem?.1 (List.mem_reverse.2 hcall')
  -- a call that works on the gate's mutex is one on the gate, wherever it comes from
  cases hchange.turned hsound hd with
  | kept hkept =>
    have hcall := mem_of_frame hkept
    rw [objects_congr hgates (hsound.known t call' hcall)] at hmem
    exact hkeeps.secret t call' hcall hmem
  | begun hmove _ _ hstore => exact hclient t call' hmove (hstore ▸ hmem)
  | @resumed e call outer hmove hget hbody _ hcall hstore =>
    subst hcall
    rw [Call.objects_resume, hstore] at hmem
    obtain ⟨p, rfl⟩ := hkeeps.secret t call (hget ▸ List.mem_cons_self) hmem
    exact ⟨_, rfl⟩
  | @next choice call outer hmove hget _ hstep =>
    have hknown := hsound.known t call (hget ▸ List.mem_cons_self)
    rw [← Call.objects_origin, Call.origin_of_step hstep, Call.objects_origin,
      objects_congr hgates hknown] at hmem
    obtain ⟨p, rfl⟩ := hkeeps.secret t call (hget ▸ List.mem_cons_self) hmem
    have horigin := Call.origin_of_step hstep
    cases call' <;> cases horigin
    exact ⟨_, rfl⟩
  | born _ hcall =>
    subst hcall
    cases hmem

namespace Guarded

variable {outer : List Call} {s' : Store}

/-- The calls on the gate when one of them goes on to phase `after`, or ends. -/
theorem frame_of_set {after : Option OncePhase} (hget : m.calls.get t = .once o p :: outer)
    {q : OncePhase}
    (hframe : frame ⟨s', m.calls.set t ((after.map (Call.once o)).toList ++ outer)⟩ u d =
      some (.once o q)) :
    (u = t ∧ d = outer.length ∧ after = some q) ∨
      (m.frame u d = some (.once o q) ∧ ¬ (u = t ∧ d = outer.length)) := by
  cases after with
  | some p' =>
    rcases frame_replace hget hframe with ⟨hu, hd, hq⟩ | hkept
    · cases hq
      exact .inl ⟨hu, hd, rfl⟩
    · exact .inr hkept
  | none => exact .inr (frame_pop hget hframe)

/-- When a call on the gate goes on or ends, no other call becomes a tenant or a misfit. -/
theorem set (after : Option OncePhase) (h : m.Guarded o l)
    (hget : m.calls.get t = .once o p :: outer)
    (htenure : Tenure t p.isTenant (m.store.holder l) (after.any OncePhase.isTenant)
      (s'.holder l))
    (hflag : s'.completed o = m.store.completed o ∨ p.isTenant = true)
    (hfits : ∀ q, after = some q → q.Fits (s'.completed o))
    (hkeeps : Keeps ⟨s', m.calls.set t ((after.map (Call.once o)).toList ++ outer)⟩ o l) :
    Guarded ⟨s', m.calls.set t ((after.map (Call.once o)).toList ++ outer)⟩ o l := by
  have hhead := h.holds t outer.length p (frame_head hget)
  -- a tenant elsewhere is not on this thread's stack if this call is one
  have hothers (hp : p.isTenant = true) {u : Tid} {d : Nat} {q : OncePhase}
      (hold : m.frame u d = some (.once o q)) (hne : ¬ (u = t ∧ d = outer.length)) :
      q.isTenant = false := by
    rw [← Bool.not_eq_true]
    intro hq
    obtain rfl : u = t := Option.some.inj ((h.holds u d q hold hq).symm.trans (hhead hp))
    exact hne ⟨rfl, h.single u d _ q p hold hq (frame_head hget) hp⟩
  refine ⟨hkeeps, ?_, ?_, ?_⟩
  · intro u d q hframe hq
    rcases frame_of_set hget hframe with ⟨rfl, rfl, rfl⟩ | ⟨hold, hne⟩
    · simp only [Option.any_some, hq] at htenure
      exact htenure.holds hhead
    · rcases htenure.stays (h.holds u d q hold hq) with hstays | hp
      · exact hstays
      · rw [hothers hp hold hne] at hq
        cases hq
  · have hnew {u : Tid} {d' : Nat} {q q' : OncePhase} (hafter : after = some q)
        (hq : q.isTenant = true) (hold : m.frame u d' = some (.once o q'))
        (hne : ¬ (u = t ∧ d' = outer.length)) : q'.isTenant = false := by
      rw [← Bool.not_eq_true]
      intro hq'
      subst hafter
      simp only [Option.any_some, hq] at htenure
      have hp := htenure.before_of_after (h.holds u d' q' hold hq')
      rw [hothers hp hold hne] at hq'
      cases hq'
    intro u d d' q q' hframe hq hframe' hq'
    rcases frame_of_set hget hframe with ⟨rfl, rfl, hafter⟩ | ⟨hold, hne⟩ <;>
      rcases frame_of_set hget hframe' with ⟨hu, rfl, hafter'⟩ | ⟨hold', hne'⟩
    · rfl
    · rw [hnew hafter hq hold' hne'] at hq'
      cases hq'
    · rw [hnew hafter' hq' hold hne] at hq
      cases hq
    · exact h.single u d d' q q' hold hq hold' hq'
  · intro u d q hframe
    rcases frame_of_set hget hframe with ⟨-, -, hafter⟩ | ⟨hold, hne⟩
    · exact hfits q hafter
    · rcases hflag with hsame | hp
      · exact hsame ▸ h.fits u d q hold
      · exact .of_outside (hothers hp hold hne) _

end Guarded

/-- A step of a call on a gate. -/
theorem advance_once {outer : List Call} (choice : Choice)
    (hget : m.calls.get t = .once o p :: outer) :
    m.advance t choice = match p.step t o m.store with
      | .next s' p' => (⟨s', m.calls.set t (.once o p' :: outer)⟩,
          if (Call.once o p').atBody then .body else .working)
      | .done s' answer => (⟨s', m.calls.set t outer⟩, .replied (.answer answer))
      | .fault s' why => (⟨s', m.calls.set t outer⟩, .panicked why)
      | .blocked => (m, .blocked)
      | .abort s' => (⟨s', m.calls.set t outer⟩, .aborted) := by
  simp only [advance, hget, Call.step, Call.lift]
  cases p.step t o m.store <;> rfl

/-- The thread that has a mutex and unlocks it is the owner until it says otherwise. -/
theorem unlock_fits {q : UnlockPhase} {pending : Option Panic} (hids : m.Identified)
    (hholds : m.Holds l) (hpart : m.part l t = .unlocking q pending)
    (hholder : m.store.holder l = some t) :
    m.store.Owns t q.me? ∧ (q.grip .full).Fits m.store.ids.own.get (m.store.lock l) t := by
  obtain ⟨me, hknows, howns⟩ := part_knows l t hids
  obtain ⟨k, hk, hkt⟩ := Option.bind_eq_some_iff.1 hholder
  have hgrips := hholds.grips t
  -- the holder is the owner, unless its grip says that it has disclaimed the mutex
  have howner (hgrip : m.grip l t ≠ .blank) : k = ⟨some t, m.store.ids.own.get t⟩ ∧
      m.store.ids.own.get t ≠ .nobody := by
    have howner := hholds.owner_of_holder hk hkt hgrip
    refine ⟨?_, ?_⟩
    · cases k
      simp_all
    · intro hnobody
      exact hgrip (hholds.unclaimed k t hk hkt (howner.trans hnobody))
  rw [hpart] at hknows
  generalize hg : m.grip l t = g at hknows hgrips howner
  cases hknows with
  | unlocking hbase =>
    refine ⟨howns, ?_⟩
    cases q with
    | entry =>
      obtain ⟨rfl, hne⟩ := howner (by rcases hbase with rfl | rfl <;> simp [UnlockPhase.grip])
      exact ⟨hk, hne⟩
    | check me =>
      obtain ⟨rfl, hne⟩ :=
        howner (by rcases hbase with rfl | rfl <;> simp [UnlockPhase.grip, Grip.meet])
      exact ⟨hk, hne⟩
    | disclaim => exact hgrips
    | release => exact hgrips

namespace Guarded

variable {outer : List Call}

theorem part_head (h : m.Guarded o l) (hget : m.calls.get t = .once o p :: outer) :
    m.part l t = p.part := by
  rw [part, see_of_get hget]
  exact if_pos h.gate

/-- A tenant that unlocks the gate does not fail. -/
theorem unlock_moves {q : UnlockPhase} {finish : OnceEnd} (h : m.Guarded o l) (hids : m.Identified)
    (hholds : m.Holds l) (hget : m.calls.get t = .once o (.unlocking q finish) :: outer) :
    (q.step t l m.store).Succeeds ∧ q.step t l m.store ≠ .blocked := by
  have hholder := h.holds t outer.length _ (frame_head hget) rfl
  obtain ⟨howns, hfits⟩ := unlock_fits hids hholds (h.part_head hget) hholder
  exact q.step_moves howns hfits

/-- A step of a call on the gate keeps it guarded. -/
theorem step (h : m.Guarded o l) (hids : m.Identified) (hholds : m.Holds l)
    (hget : m.calls.get t = .once o p :: outer)
    (hkeeps : (m.advance t choice).1.Keeps o l) : (m.advance t choice).1.Guarded o l := by
  have htenures := p.step_tenures (t := t) (o := o) (s := m.store) ?_
  have hfits := OncePhase.step_fits (t := t) (h.fits t _ p (frame_head hget))
  have hflag : (p.step t o m.store).Keeps fun s' =>
      s'.completed o = m.store.completed o ∨ p.isTenant = true := by
    -- only the step that completes the gate writes the flag
    by_cases hp : p = .complete
    · subst hp
      exact .inr rfl
    · refine (OncePhase.step_apart hp).imp fun s' hs => .inl ?_
      rw [Store.completed, hs.onces]
      rfl
  rw [h.gate] at htenures
  rw [advance_once choice hget] at hkeeps ⊢
  cases hstep : p.step t o m.store with
  | next s' p' =>
    rw [hstep] at htenures hfits hflag hkeeps
    exact h.set (some p') hget htenures hflag (fun q hq => by cases hq; exact hfits) hkeeps
  | blocked => exact h
  | _ =>
    rw [hstep] at htenures hfits hflag hkeeps
    exact h.set none hget htenures hflag (fun q hq => by cases hq) hkeeps
  · intro q finish hq
    subst hq
    rw [h.gate]
    exact (h.unlock_moves hids hholds hget).1

/-- Every move keeps the gate guarded. -/
theorem change (h : m.Guarded o l) (hallows : m.allows move = true) (hsound : m.Sound)
    (hids : m.Identified) (hholds : m.Holds l)
    (hclient : ∀ t call, move = .begin t call → .mutex l ∈ call.objects m.store →
      ∃ p, call = .once o p) : (m.apply move).Guarded o l := by
  have hchange := change_apply hallows
  have hkeeps := h.toKeeps.change hchange hsound hclient
  cases gateEvent hchange hsound (lockEvent hallows hsound hids l) h.toKeeps with
  | @step t choice p outer hmove hget =>
    subst hmove
    exact h.step hids hholds hget hkeeps
  | @resume t e outer hmove hget =>
    subst hmove
    have happly : m.apply (.endBody t e) =
        ⟨m.store, m.calls.set t (.once o (OncePhase.callback.resume e) :: outer)⟩ :=
      endBody_of_get hget e
    have hopen : m.store.completed o = false := h.fits t _ .callback (frame_head hget)
    -- the call comes out of its body as the tenant that it was
    have hresumed : (OncePhase.callback.resume e).isTenant = true ∧
        (OncePhase.callback.resume e).Fits false := by
      rcases e with ⟨_ | _⟩ | why <;> exact ⟨rfl, rfl⟩
    rw [happly] at hkeeps ⊢
    refine h.set (some _) hget ?_ (.inl rfl) ?_ hkeeps
    · rw [Option.any_some, hresumed.1]
      exact .keep
    · intro q hq
      cases hq
      rw [hopen]
      exact hresumed.2
  | other hflag hholder hframe =>
    refine ⟨hkeeps, ?_, ?_, ?_⟩
    · intro t d p hd hp
      rcases hframe t d p hd with hkept | rfl
      · rcases hholder with hsame | hunused
        · exact hsame ▸ h.holds t d p hkept hp
        · exact absurd (by simp [Call.objects, h.gate]) (hunused t _ (mem_of_frame hkept))
      · cases hp
    · intro t d d' p p' hd hp hd' hp'
      rcases hframe t d p hd with hkept | rfl
      · rcases hframe t d' p' hd' with hkept' | rfl
        · exact h.single t d d' p p' hkept hp hkept' hp'
        · cases hp'
      · cases hp
    · intro t d p hd
      rcases hframe t d p hd with hkept | rfl
      · exact hflag ▸ h.fits t d p hkept
      · trivial

end Guarded

end Machine

/-! ## Gates in runs

That clients keep away from the gate's mutex is what the program's types say: the mutex is a private
field of the gate. Here it is a condition on the moves. -/

/-- Whether a client that makes this move leaves mutex `l` to the calls on gate `o`. -/
def Machine.leavesTo (o : OnceRef) (l : LockRef) (m : Machine) : Move → Bool
  | .begin _ call => !(call.objects m.store).contains (.mutex l) || call.origin == .passing o
  | _ => true

namespace Run

/-- Gate `o` with mutex `l` is created in move `start`, and clients work on this mutex in no other
way than through the gate. -/
structure Gate (r : Run) (o : OnceRef) (l : LockRef) (start : Nat) : Prop where
  created : r.move start = .create .once
  mutex : l = (r.state start).store.nextHandle
  gate : o = (r.state start).store.nextHandle + 1
  secret : ∀ i, (r.state i).leavesTo o l (r.move i) = true

variable {r : Run} {o : OnceRef} {l : LockRef} {start i j : Nat} {t u : Tid}

/-- A call that works on the gate's mutex is one on the gate. -/
theorem Gate.once_of_begin (h : r.Gate o l start) {call : Call} (hmove : r.move i = .begin t call)
    (hmem : .mutex l ∈ call.objects (r.state i).store) : ∃ p, call = .once o p := by
  have hsecret := h.secret i
  rw [hmove] at hsecret
  simp only [Machine.leavesTo, List.contains_iff_mem.2 hmem, Bool.not_true, Bool.false_or,
    beq_iff_eq] at hsecret
  cases call <;> cases hsecret
  exact ⟨_, rfl⟩

/-- From its creation on, a gate is guarded. -/
theorem Gate.guarded (h : r.Gate o l start) (hi : start < i) : (r.state i).Guarded o l := by
  induction hi with
  | refl =>
    have hstore : (r.state (start + 1)).store = (r.state start).store.addOnce.1 := by
      rw [state_succ, h.created]
      rfl
    have hcalls : (r.state (start + 1)).calls = (r.state start).calls := by
      rw [state_succ, h.created]
      rfl
    have hgates := ((r.state start).store.addOnce_grows).gates
    have hsound := r.state_sound start
    -- no call works on what is new
    have hnew (t : Tid) (d : Nat) (p : OncePhase) :
        (r.state (start + 1)).frame t d ≠ some (.once o p) := by
      intro hframe
      rw [Machine.frame, hcalls] at hframe
      have hknown := hsound.known t _ (Machine.mem_of_frame hframe)
      have ho : o < (r.state start).store.nextHandle :=
        Call.handle_lt_of_knows hknown List.mem_cons_self
      rw [h.gate] at ho
      exact Nat.lt_irrefl _ (Nat.lt_of_succ_lt ho)
    refine ⟨⟨?_, ?_, ?_⟩, fun t d p hframe => absurd hframe (hnew t d p),
      fun t d _ p _ hframe => absurd hframe (hnew t d p),
      fun t d p hframe => absurd hframe (hnew t d p)⟩
    · rw [hstore, h.gate, h.mutex]
      simp [Store.addOnce, Store.addMutex, Store.takeHandle, Store.setMutex, Store.setOnce]
    · rw [hstore, h.gate]
      simp [Store.addOnce, Store.addMutex, Store.takeHandle, Store.setMutex, Store.setOnce]
    · intro t call hcall hmem
      rw [hcalls] at hcall
      rw [hstore, Machine.objects_congr hgates (hsound.known t call hcall), h.mutex] at hmem
      exact absurd hmem (hsound.not_mem_of_new (Nat.le_refl _) hcall)
  | @step i hi ih =>
    exact ih.change (r.state_allows i) (r.state_sound i) (r.state_identified i)
      (r.state_holds l i) fun _ _ => h.once_of_begin

end Run

end Interlock
