import Interlock.Proofs.Thread.Entry

/-!
# What a move shows

Where a thread is at an object is read off its innermost call. It changes for one thread in a move,
the one that takes a step, and it changes as the step of its call says. The object is read off the
store, and it changes where a call works on it or a client creates one.

  * `Progress.notice_lift_replied`, `Progress.notice_lift_panicked`: what the client learns from the
    phases of its call;
  * `Run.performs_of_move`: what a step tells its client, and the store that it leaves;
  * `Progress.shown`, `Run.see_of_move`: the view that a step leads to;
  * `Run.see_idle`, `Run.see_elsewhere`: the views that a move leaves as they were;
  * `Run.store_kept`: the parts of the store that a move leaves as they were.
-/

namespace Interlock

variable {β : Type} {f : Call → β} {d : β}

namespace Progress

/-- What the client learns from a step of its call. -/
def notice : Progress Call Reply → Notice
  | next _ call => if call.atBody then .body else .working
  | done _ reply => .replied reply
  | fault _ why => .panicked why
  | blocked => .blocked
  | abort _ => .aborted

/-- What is seen of the thread of a call after this step of it: the call in its next phase, the call
as it was if the step cannot be taken, and nothing if the call has ended. -/
def shown (f : Call → β) (d : β) (call : Call) : Progress Call Reply → β
  | next _ call' => f call'
  | done _ _ | fault _ _ | abort _ => d
  | blocked => f call

section

variable {φ ρ : Type} {call : φ → Call} {reply : ρ → Reply} {p : Progress φ ρ}

/-- A call replies when its phases do. -/
theorem notice_lift_replied {x : Reply} : (Call.lift call reply p).notice = .replied x ↔
    ∃ s r, p = .done s r ∧ reply r = x := by
  cases p with
  | next s phase =>
    simp only [Call.lift, within, notice]
    split <;> simp
  | _ => simp [Call.lift, within, notice, and_assoc]

/-- A call panics when its phases do. -/
theorem notice_lift_panicked {why : Panic} : (Call.lift call reply p).notice = .panicked why ↔
    ∃ s, p = .fault s why := by
  cases p with
  | next s phase =>
    simp only [Call.lift, within, notice]
    split <;> simp
  | _ => simp [Call.lift, within, notice]

end

end Progress

namespace Machine

variable {m : Machine} {move : Move} {t : Tid}

/-- A thread that keeps its calls is seen as before, by a view that does not look at the store. -/
theorem see_congr {m' : Machine} (h : m'.calls.get t = m.calls.get t) :
    m'.see f d t = m.see f d t := by
  rw [see, see, call?, call?, h]

/-- What a thread learns from its step is what the step of its innermost call says. -/
theorem advance_notice {choice : Choice} {call : Call} (hcall : m.call? t = some call) :
    (m.advance t choice).2 = (call.step t choice m.store).notice := by
  obtain ⟨outer, hget⟩ := List.head?_eq_some_iff.1 hcall
  simp only [advance, hget]
  cases call.step t choice m.store <;> rfl

theorem see_of_client (hcalm : ∀ call : Call, call.Calm → f call = d)
    (h : ∀ call, m.call? t = some call → call.atBody = true) : m.see f d t = d :=
  see_eq fun call hcall => hcalm call (.body (h call hcall))

/-- A thread that takes no step is seen as before. -/
theorem Stacked.see_idle {m' : Machine} (h : m.Stacked move m' t)
    (hcalm : ∀ call : Call, call.Calm → f call = d) (hinstall : ∀ id, f (.install id) = d)
    (hidle : ∀ choice, move ≠ .advance t choice) : m'.see f d t = m.see f d t := by
  cases h with
  | same hcalls => exact see_congr hcalls
  | begun hmove hfresh hclient hcalls =>
    rw [see_of_get hcalls, hcalm _ (.fresh hfresh), see_of_client hcalm]
    intro call hcall
    have hbody : m.lives t = true ∧ call.atBody = true := by simpa [inClient, hcall] using hclient
    exact hbody.2
  | @resumed e call outer hmove hget hbody hcalls =>
    rw [see_of_get hcalls, see_of_get hget, hcalm _ (.resumed e hbody), hcalm _ (.body hbody)]
  | next hmove => exact absurd hmove (hidle _)
  | last hmove => exact absurd hmove (hidle _)
  | born _ hnew hcalls =>
    rw [see_of_get hcalls, hinstall, see, call?, hnew]
    rfl

end Machine

namespace Run

variable {r : Run} {i : Nat} {t u : Tid} {choice : Choice} {call : Call}

/-! ## Steps

A recorded move of a thread is a step of its innermost call. These lemmas say once what becomes of
the store and what the client is told, in terms of that step alone. -/

/-- A thread that takes a step performs it: its client is told what the step says, and the store is
the one that the step leaves. -/
theorem performs_of_move (hmove : r.move i = .advance t choice)
    (hcall : (r.state i).call? t = some call) :
    r.Performs t i call (call.step t choice (r.state i).store).notice ∧
      (r.state (i + 1)).store =
        (call.step t choice (r.state i).store).storeFrom (r.state i).store := by
  refine ⟨⟨choice, hmove, hcall, Machine.advance_notice hcall⟩, ?_⟩
  obtain ⟨outer, hget⟩ := List.head?_eq_some_iff.1 hcall
  rw [state_succ, hmove]
  exact Machine.advance_store choice hget

/-- A step that cannot be taken changes nothing. -/
theorem state_of_blocked (hmove : r.move i = .advance t choice)
    (hcall : (r.state i).call? t = some call)
    (hblocked : call.step t choice (r.state i).store = .blocked) :
    r.state (i + 1) = r.state i := by
  rw [state_succ, hmove]
  exact Machine.same_of_blocked ((Machine.advance_notice hcall).trans (by rw [hblocked]; rfl))

/-- A thread that is in no call has no step to take. -/
theorem state_of_none (hmove : r.move i = .advance t choice) (hcall : (r.state i).call? t = none) :
    r.state (i + 1) = r.state i := by
  have hnil : (r.state i).calls.get t = [] := List.head?_eq_none_iff.1 hcall
  rw [state_succ, hmove]
  simp only [Machine.apply, Machine.advance, hnil]

/-! ## Views of the innermost calls

The views here see nothing of a calm call nor of a thread that is about to install its identity, so
what a move shows is decided by the thread that takes a step, and by nobody else. -/

section

variable (hcalm : ∀ call : Call, call.Calm → f call = d) (hinstall : ∀ id, f (.install id) = d)

include hcalm in
/-- A thread that takes a step is seen as the step says. -/
theorem see_of_move (hmove : r.move i = .advance t choice)
    (hcall : (r.state i).call? t = some call) :
    (r.state (i + 1)).see f d t = (call.step t choice (r.state i).store).shown f d call := by
  obtain ⟨outer, hget⟩ := List.head?_eq_some_iff.1 hcall
  have hstate := state_of_advance hmove
  -- the calls below run their client's code
  have hlast (hcalls : (r.state (i + 1)).calls.get t = outer) :
      (r.state (i + 1)).see f d t = d := by
    refine Machine.see_of_client hcalm fun k hk => ?_
    rw [Machine.call?, hcalls] at hk
    exact (r.state_sound i).waiting t call outer hget k (List.mem_of_head? hk)
  cases hstep : call.step t choice (r.state i).store with
  | next s' call' =>
    obtain ⟨hcall', -⟩ := (r.state_sound i).call?_of_next hget hstep
    rw [← hstate] at hcall'
    exact Machine.see_of_call? hcall'
  | blocked =>
    rw [state_of_blocked hmove hcall hstep, Machine.see_of_call? hcall]
    rfl
  | _ =>
    refine hlast ?_
    rw [hstate]
    simp only [Machine.advance, hget, hstep, Table.get_set_self]

include hcalm hinstall

theorem see_idle (hidle : ∀ choice, r.move i ≠ .advance u choice) :
    (r.state (i + 1)).see f d u = (r.state i).see f d u :=
  (r.stacked i u).see_idle hcalm hinstall hidle

/-- When a thread takes a step, the others are seen as before. -/
theorem see_others (hmove : r.move i = .advance t choice) (hu : u ≠ t) :
    (r.state (i + 1)).see f d u = (r.state i).see f d u := by
  refine see_idle hcalm hinstall fun choice' hmove' => hu ?_
  cases hmove.symm.trans hmove'
  rfl

/-- A thread whose call shows nothing is seen as before. -/
theorem see_elsewhere (hmove : r.move i = .advance t choice)
    (hcall : (r.state i).call? t = some call)
    (hf : ∀ call' : Call, call'.origin = call.origin → f call' = d) :
    (r.state (i + 1)).see f d u = (r.state i).see f d u := by
  by_cases hu : u = t
  · subst hu
    rw [see_of_move hcalm hmove hcall, Machine.see_of_call? hcall, hf call rfl]
    cases hstep : call.step u choice (r.state i).store with
    | next s' call' => exact hf call' (Call.origin_of_step hstep)
    | blocked => exact hf call rfl
    | _ => rfl
  · exact see_others hcalm hinstall hmove hu

end

/-! ## Parts of the store

The counterpart for the store: what is read off one kind of object changes only in a step of a call
that works on it, or in its creation. -/

/-- What no creation and no step writes stays as it was: `g` looks neither at the clock nor at
the threads of the operating system. -/
theorem store_kept {α : Type} {g : Store → α}
    (hcreate : ∀ c, r.move i = .create c → g (c.apply (r.state i).store) = g (r.state i).store)
    (hstep : ∀ t choice call, r.move i = .advance t choice → (r.state i).call? t = some call →
      (call.step t choice (r.state i).store).Keeps (g · = g (r.state i).store))
    (hg : ∀ s clock osThreads nextThread, g { s with
      clock := clock, osThreads := osThreads, nextThread := nextThread } = g s := by
        exact fun _ _ _ _ => rfl) :
    g (r.state (i + 1)).store = g (r.state i).store := by
  cases hmove : r.move i with
  | create c =>
    rw [state_succ, hmove]
    exact hcreate c hmove
  | advance t choice =>
    cases hcall : (r.state i).call? t with
    | none => rw [state_of_none hmove hcall]
    | some call =>
      rw [(performs_of_move hmove hcall).2]
      exact (hstep t choice call hmove hcall).storeFrom rfl
  | endBody t e => rw [state_succ, hmove, Machine.apply, Machine.endBody_store]
  | begin t call => rw [state_succ, hmove]; rfl
  | spawn creator => rw [state_succ, hmove]; exact hg ..
  | exit t ending => rw [state_succ, hmove]; exact hg ..
  | tick n => rw [state_succ, hmove]; exact hg ..

end Run

end Interlock
