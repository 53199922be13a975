import Interlock.Proofs.Agreement.Pair

/-!
# Waits that have checked their condition variable

A wait begins with a look at whether its condition variable is initialized, and looks at it again
after it has checked its mutex. Nobody destroys the condition variable in between.

  * `Call.checks`: the condition variable that a wait will look at again;
  * `Machine.Ready`: it is a portable one, and `Machine.Ready.change`: it stays one.
-/

namespace Interlock

/-- Whether a wait has found its condition variable initialized, and looks at it again. -/
def WaitPhase.isChecking : WaitPhase → Bool
  | identify | check _ => true
  | _ => false

/-- The condition variable that a wait has found initialized, and looks at again. -/
def Call.checks : Call → Option CondRef
  | wait c _ _ p | waitWhile c _ _ (.waiting _ _ p) => if p.isChecking then some c else none
  | _ => none

section

variable {t : Tid} {c d : CondRef} {l : LockRef} {timeout : Option Duration} {s s' : Store}
  {choice : Choice} {call call' : Call}

/-- A wait comes to check its condition variable when it has found it initialized. -/
theorem WaitPhase.checking_of_next {p p' : WaitPhase} (h : p.step t c l timeout s = .next s' p')
    (hp' : p'.isChecking = true) :
    p.isChecking = true ∨ (s.conds.get c).isInitialized = true := by
  cases p with
  | entry =>
    simp only [step, Store.violate] at h
    split at h
    · exact .inr ‹_›
    · cases h
  | native p =>
    obtain ⟨_, -, rfl⟩ | ⟨_, _, -, hdone⟩ := Progress.next_of_within h
    · cases hp'
    · cases hdone
  | fallback p =>
    obtain ⟨_, -, rfl⟩ | ⟨_, _, -, hdone⟩ := Progress.next_of_within h
    · cases hp'
    · cases hdone
  | _ => exact .inl rfl

/-- A call comes to look again when it has found the condition variable initialized. -/
theorem Call.checks_of_next (h : call.step t choice s = .next s' call')
    (hchecks : call'.checks = some d) :
    call.checks = some d ∨ (s.conds.get d).isInitialized = true := by
  -- what a wait comes to check, on its own or in a loop
  have hwait {c : CondRef} {l : LockRef} {timeout : Option Duration} {p p' : WaitPhase}
      (hstep : p.step t c l timeout s = .next s' p')
      (hchecks : (if p'.isChecking then some c else none) = some d) :
      (if p.isChecking then some c else none) = some d ∨ (s.conds.get d).isInitialized = true := by
    split at hchecks
    · cases hchecks
      rcases p.checking_of_next hstep ‹_› with hp | hinit
      · exact .inl (if_pos hp)
      · exact .inr hinit
    · cases hchecks
  have horigin := origin_of_step h
  cases call' with
  | wait c l timeout p' =>
    cases call with
    | wait c l timeout p =>
      obtain ⟨_, hstep, heq⟩ := Progress.next_of_lift h
      cases heq
      exact hwait hstep hchecks
    | _ => cases horigin
  | waitWhile c l whole p' =>
    cases call with
    | waitWhile c l whole p =>
      obtain ⟨_, hstep, heq⟩ := Progress.next_of_lift h
      cases heq
      cases p with
      | waiting start rest p =>
        obtain ⟨_, hp, rfl⟩ | ⟨_, _, -, hdone⟩ := Progress.next_of_within hstep
        · exact hwait hp hchecks
        · cases hdone
          cases hchecks
      | _ =>
        simp only [WaitWhilePhase.step] at hstep
        (repeat' split at hstep) <;> cases hstep <;> cases hchecks
    | _ => cases horigin
  | _ => cases hchecks

/-- The condition variable is one of the objects of the call. -/
theorem Call.mem_objects_of_checks (h : call.checks = some d) :
    .condition d ∈ call.objects s := by
  cases call with
  | wait c l timeout p =>
    simp only [checks] at h
    split at h <;> cases h
    simp [objects]
  | waitWhile c l timeout p =>
    cases p with
    | waiting start rest p =>
      simp only [checks] at h
      split at h <;> cases h
      simp [objects]
    | _ => cases h
  | _ => cases h

/-- A call that runs code of its client's, or has just begun, will not look again. -/
theorem Call.Calm.checks (h : call.Calm) : call.checks = none := by
  cases h with
  | fresh h =>
    cases call <;> simp only [isFresh, beq_iff_eq, Bool.false_eq_true] at h <;> first
      | rfl
      | (subst h; rfl)
  | body h =>
    unfold atBody at h
    split at h <;> first
      | rfl
      | simp at h
  | resumed e h =>
    unfold atBody at h
    split at h <;> first
      | rfl
      | (rcases e with ⟨_ | _⟩ | _ <;> rfl)
      | simp at h

end

namespace Machine

/-- A condition variable that a wait looks at again is a portable one. -/
def Ready (m : Machine) : Prop :=
  ∀ t c, m.see Call.checks none t = some c → ∃ f, m.store.conds.get c = .fallback f

variable {m m' : Machine} {move : Move} {c d : CondRef} {t : Tid} {call : Call} {s' : Store}
  {choice : Choice}

theorem ready_initial : initial.Ready := fun _ _ hchecks => by cases hchecks

/-- A step that does not destroy anything leaves a portable condition variable portable. -/
theorem Regular.portable_of_step (hregular : m.Regular)
    (hroom : m.hasRoom d (.advance t choice) = true) (hcall : m.call? t = some call)
    (hdestroy : ∀ o unwinding, call ≠ .destroy o unwinding)
    (hportable : ∃ f, m.store.conds.get d = .fallback f) :
    (call.step t choice m.store).Keeps fun s' => ∃ f, s'.conds.get d = .fallback f := by
  obtain ⟨f, hf⟩ := hportable
  have hplace (d : CondRef) : m.place d t = call.place d := see_of_call? hcall
  have hturns : (call.step t choice m.store).TurnsAt d m.store (call.place d) :=
    Call.step_turns d (fun d => hplace d ▸ releases hregular.identified hregular.holds t d) hdestroy
  have hturn {p p' : Place} {cond : Condition} (h : (m.store.conds.get d).Turn p cond p') :
      ∃ f, cond = .fallback f := by
    rw [hf] at h
    cases h with
    | portable h => exact ⟨_, rfl⟩
    | other hcond => exact absurd rfl (hcond f)
  refine hturns.mono (fun _ _ => hturn) (fun _ _ => hturn) ?_
  rintro s' (⟨-, hsame⟩ | ⟨f', hf', hfault⟩)
  · exact ⟨f, hsame.trans hf⟩
  · exact absurd hfault (hplace d ▸ (hregular.orderly d).not_fault hroom rfl hf')

/-- What a thread looks at again is one of the objects of a call in progress. -/
theorem mem_objects_of_checks {u : Tid} (hu : m.see Call.checks none u = some d) :
    ∃ call ∈ m.calls.get u, .condition d ∈ call.objects m.store := by
  cases hcall : m.call? u with
  | none =>
    rw [see, hcall] at hu
    cases hu
  | some call =>
    rw [see_of_call? hcall] at hu
    exact ⟨call, mem_of_call? hcall, Call.mem_objects_of_checks hu⟩

/-- What a client creates is new. -/
theorem Ready.of_grows (h : m.Ready) (hsound : m.Sound) (hgrows : m.store.Grows s') {u : Tid}
    (hu : m.see Call.checks none u = some d) : ∃ f, s'.conds.get d = .fallback f := by
  obtain ⟨f, hf⟩ := h u d hu
  rcases hgrows.conds d with hsame | ⟨hnew, -⟩
  · exact ⟨f, hsame.trans hf⟩
  · obtain ⟨call, hcall, hd⟩ := mem_objects_of_checks hu
    have hlt := Call.handle_lt_of_knows (hsound.known u call hcall) hd
    exact absurd hnew (Nat.not_le.2 hlt)

/-- A destruction takes away no condition variable that is still in use. -/
theorem Ready.of_destroy (h : m.Ready) (hsound : m.Sound) {o : Object} (hunused : m.unused o = true)
    (unwinding : Bool) {u : Tid} (hu : m.see Call.checks none u = some d) :
    ∃ f, (m.store.destroy o unwinding).1.conds.get d = .fallback f := by
  rcases m.store.destroy_cond o unwinding d with hsame | ⟨-, hpart⟩
  · obtain ⟨f, hf⟩ := h u d hu
    exact ⟨f, hsame.trans hf⟩
  · obtain ⟨call, hcall, hd⟩ := mem_objects_of_checks hu
    exact absurd hd (not_mem_objects hsound hunused hpart hcall)

/-- Nobody destroys a condition variable that a wait looks at again. -/
theorem Ready.change (h : m.Ready) (hregular : m.Regular)
    (hplain : ∀ c q, m.store.conds.get c ≠ .native q) (hroom : ∀ c, m.hasRoom c move = true)
    (hchange : m.Change move m') : m'.Ready := by
  -- what the move leaves of the condition variables that others look at, and what its own thread
  -- comes to look at
  let Kept (s' : Store) : Prop :=
    ∀ u d, m.see Call.checks none u = some d → ∃ f, s'.conds.get d = .fallback f
  let Q (_ : Tid) (s' : Store) (p p' : Option CondRef) : Prop :=
    Kept s' ∧ ∀ d, p' = some d → p = some d ∨ ∃ f, s'.conds.get d = .fallback f
  have hview : m.View (fun _ => Call.checks) none :=
    ⟨fun _ _ hcalm => hcalm.checks, fun _ _ _ _ => rfl⟩
  have hsees : ∃ t, Q t m'.store (m.see Call.checks none t) (m'.see Call.checks none t) ∧
      ∀ u, u ≠ t → m'.see Call.checks none u = m.see Call.checks none u := by
    refine Change.see (Q := Q) hview hregular.sound ?_ ?_ (fun _ _ => rfl) hchange
    · intro t s' p hgrows
      exact ⟨fun _ _ => h.of_grows hregular.sound hgrows, fun _ => .inl⟩
    · rintro t choice call rfl hcall hunused
      by_cases hdestroy : ∃ o unwinding, call = .destroy o unwinding
      · obtain ⟨o, unwinding, rfl⟩ := hdestroy
        have hkept : Kept (m.store.destroy o unwinding).1 := fun _ _ =>
          h.of_destroy hregular.sound (hunused o unwinding rfl) unwinding
        exact (Call.ends_destroy t choice m.store o unwinding).meets (fun _ => ⟨hkept, by simp⟩)
          ⟨hkept, by simp⟩
      · have hportable (d : CondRef) (hd : ∃ f, m.store.conds.get d = .fallback f) :
            (call.step t choice m.store).Keeps fun s' => ∃ f, s'.conds.get d = .fallback f :=
          hregular.portable_of_step (hroom d) hcall (fun o unwinding heq =>
            hdestroy ⟨o, unwinding, heq⟩) hd
        cases hstep : call.step t choice m.store <;> simp only [hstep] at hportable
        case next s' call' =>
          refine ⟨fun u d hu => hportable d (h u d hu), fun d hd => ?_⟩
          rcases Call.checks_of_next hstep hd with hbefore | hinit
          · exact .inl hbefore
          · refine .inr (hportable d ?_)
            cases hcond : m.store.conds.get d with
            | raw =>
              rw [hcond] at hinit
              cases hinit
            | native q => exact absurd hcond (hplain d q)
            | fallback f => exact ⟨f, rfl⟩
        case blocked => trivial
        all_goals exact ⟨fun u d hu => hportable d (h u d hu), by simp⟩
  obtain ⟨t, ⟨hkept, hself⟩, hothers⟩ := hsees
  intro u d hu
  by_cases hut : u = t
  · subst hut
    rcases hself d hu with hbefore | hportable
    · exact hkept u d hbefore
    · exact hportable
  · exact hkept u d ((hothers u hut).symm.trans hu)

end Machine

end Interlock
