import Interlock.Proofs.Stack

/-!
# Calls by their depth

A call keeps the number of calls below it as long as it lasts, so this number tells the calls of a
thread apart over time (`Machine.frame`). In a move, the call at a depth stays, or it is the one
that its thread's move is about (`Machine.Turned`).

A call that runs none of its client's code is the innermost one of its thread; `Machine.Arises`
says how it came to be that.
-/

namespace Interlock

namespace Machine

variable {m m' : Machine} {move : Move} {t : Tid} {d : Nat} {call : Call} {outer : List Call}

/-! ## Calls at a depth

The stack of a thread grows and shrinks at its head, so a call is found again by its distance from
the other end. The three lemmas `frame_push`, `frame_replace` and `frame_pop` are the moves of a
stack: a call comes on top, the top one goes on, the top one goes. -/

/-- The call of thread `t` that has `d` calls below it. -/
def frame (m : Machine) (t : Tid) (d : Nat) : Option Call := (m.calls.get t).reverse[d]?

/-- The calls of a stack from below, the innermost one last. -/
theorem frame_cons (d : Nat) : (call :: outer).reverse[d]? =
    if d = outer.length then some call else outer.reverse[d]? := by
  rw [List.reverse_cons, List.getElem?_append, List.length_reverse]
  rcases Nat.lt_trichotomy d outer.length with hd | rfl | hd
  · simp [hd, Nat.ne_of_lt hd]
  · simp
  · have hnone : outer.reverse[d]? = none := List.getElem?_eq_none (by simpa using Nat.le_of_lt hd)
    rw [if_neg (Nat.lt_asymm hd), if_neg (Nat.ne_of_gt hd), hnone]
    exact List.getElem?_eq_none (by simp; omega)

theorem frame_of_get (hget : m.calls.get t = call :: outer) (d : Nat) :
    m.frame t d = if d = outer.length then some call else outer.reverse[d]? := by
  rw [frame, hget, frame_cons]

theorem frame_head (hget : m.calls.get t = call :: outer) :
    m.frame t outer.length = some call := by
  rw [frame_of_get hget, if_pos rfl]

section

variable {u : Tid} {k : Call} {s : Store}

/-- When a thread has a new innermost call, each of the others is where it was. -/
theorem frame_push (hbelow : ∀ d, outer.reverse[d]? = some k → d ≠ outer.length →
      m.frame u d = some k) (h : frame ⟨s, m.calls.set u (call :: outer)⟩ t d = some k) :
    (t = u ∧ d = outer.length ∧ k = call) ∨
      (m.frame t d = some k ∧ ¬ (t = u ∧ d = outer.length)) := by
  simp only [frame, Table.get_set] at h
  split at h
  · subst u
    rw [frame_cons] at h
    split at h
    · cases h
      exact .inl ⟨rfl, ‹_›, rfl⟩
    · exact .inr ⟨hbelow d h ‹_›, by simp [*]⟩
  · exact .inr ⟨h, by simp [*]⟩

/-- When an innermost call goes on, each of the others is where it was. -/
theorem frame_replace {call' : Call} (hget : m.calls.get u = call :: outer)
    (h : frame ⟨s, m.calls.set u (call' :: outer)⟩ t d = some k) :
    (t = u ∧ d = outer.length ∧ k = call') ∨
      (m.frame t d = some k ∧ ¬ (t = u ∧ d = outer.length)) :=
  frame_push (fun d hd hne => by rw [frame_of_get hget, if_neg hne, hd]) h

/-- When an innermost call ends, each of the others is where it was. -/
theorem frame_pop (hget : m.calls.get u = call :: outer)
    (h : frame ⟨s, m.calls.set u outer⟩ t d = some k) :
    m.frame t d = some k ∧ ¬ (t = u ∧ d = outer.length) := by
  simp only [frame, Table.get_set] at h
  split at h
  · subst u
    have hne : d ≠ outer.length := by
      rintro rfl
      simp at h
    exact ⟨by rw [frame_of_get hget, if_neg hne, h], by simp [hne]⟩
  · exact ⟨h, by simp [*]⟩

end

theorem lt_of_frame (h : m.frame t d = some call) : d < (m.calls.get t).length := by
  simpa using (List.getElem?_eq_some_iff.1 h).1

theorem mem_of_frame (h : m.frame t d = some call) : call ∈ m.calls.get t :=
  List.mem_reverse.1 (List.mem_of_getElem? h)

theorem exists_frame_of_mem (h : call ∈ m.calls.get t) : ∃ d, m.frame t d = some call :=
  List.mem_iff_getElem?.1 (List.mem_reverse.2 h)

/-- A call that does not run its client's code is the innermost one. -/
theorem get_of_frame (hsound : m.Sound) (h : m.frame t d = some call)
    (hbody : call.atBody = false) : ∃ outer, m.calls.get t = call :: outer ∧ d = outer.length := by
  cases hget : m.calls.get t with
  | nil => simp [frame, hget] at h
  | cons call' outer =>
    rw [frame_of_get hget] at h
    split at h
    · cases h
      exact ⟨outer, rfl, ‹_›⟩
    · have hmem : call ∈ outer := List.mem_reverse.1 (List.mem_of_getElem? h)
      have hwaits := hsound.waiting t call' outer hget call hmem
      simp [hbody] at hwaits

/-- How a call came to be at its depth in a move. -/
inductive Turned (m : Machine) (move : Move) (m' : Machine) (t : Tid) (d : Nat) (call' : Call) :
    Prop
  | kept (hframe : m.frame t d = some call')
  | begun (hmove : move = .begin t call') (hfresh : call'.isFresh = true)
    (hdepth : d = (m.calls.get t).length) (hstore : m'.store = m.store)
  | resumed {e : BodyEnd} {call : Call} {outer : List Call} (hmove : move = .endBody t e)
    (hget : m.calls.get t = call :: outer) (hbody : call.atBody = true) (hdepth : d = outer.length)
    (hcall : call' = call.resume e) (hstore : m'.store = m.store)
  | next {choice : Choice} {call : Call} {outer : List Call} (hmove : move = .advance t choice)
    (hget : m.calls.get t = call :: outer) (hdepth : d = outer.length)
    (hstep : call.step t choice m.store = .next m'.store call')
  | born {id : ThreadId} (hnew : m.calls.get t = []) (hcall : call' = .install id)

/-- Every call of the machine after a move has come to its depth in one of these ways. -/
theorem Change.turned (hchange : m.Change move m') (hsound : m.Sound) {call' : Call}
    (h : m'.frame t d = some call') : m.Turned move m' t d call' := by
  cases hchange with
  | client => exact .kept h
  | @begin u call hborn hfresh =>
    rcases frame_push (fun d hd _ => hd) h with ⟨rfl, hdepth, rfl⟩ | ⟨hkept, -⟩
    · exact .begun rfl hfresh hdepth rfl
    · exact .kept hkept
  | resume e hget hbody =>
    rcases frame_replace hget h with ⟨rfl, hdepth, rfl⟩ | ⟨hkept, -⟩
    · exact .resumed rfl hget hbody hdepth rfl rfl
    · exact .kept hkept
  | @next u choice call call'' outer s' hget hstep =>
    -- the stack of the thread that moves; one that is born comes on top of it
    have hmoved (hframe : frame ⟨s', m.calls.set u (call'' :: outer)⟩ t d = some call') :
        m.frame t d = some call' ∨ t = u ∧ d = outer.length ∧ call' = call'' :=
      (frame_replace hget hframe).symm.imp_left And.left
    cases hchild : call''.child? with
    | none =>
      simp only [hchild, adopt] at h ⊢
      rcases hmoved h with hkept | ⟨rfl, hdepth, rfl⟩
      · exact .kept hkept
      · exact .next rfl hget hdepth hstep
    | some pair =>
      obtain ⟨child, id⟩ := pair
      obtain ⟨rfl, -⟩ := Call.child_of_step hstep hchild
      simp only [hchild, adopt] at h ⊢
      by_cases ht : t = m.store.nextThread
      · subst ht
        simp only [frame, Table.get_set_self] at h
        cases d <;> simp at h
        exact .born (hsound.unborn _ (Nat.le_refl _)) h.symm
      · rw [frame, Table.get_set_of_ne _ _ ht] at h
        rcases hmoved h with hkept | ⟨rfl, hdepth, rfl⟩
        · exact .kept hkept
        · exact .next rfl hget hdepth hstep
  | last hget => exact .kept (frame_pop hget h).1

/-! ## The innermost call

A statement about a run often starts from a call in some phase and asks how it came there. `Arises`
is the answer, one move back: it carries the inductions that go backwards from a moment of a run. -/

/-- A call that goes on stays the innermost one. -/
theorem Sound.call?_of_next (hsound : m.Sound) {choice : Choice} {call' : Call} {s' : Store}
    (hget : m.calls.get t = call :: outer) (hstep : call.step t choice m.store = .next s' call') :
    (m.advance t choice).1.call? t = some call' ∧ (m.advance t choice).1.store = s' := by
  have hsee := see_next (f := fun _ => some) (d := none) hsound hget hstep
  have hcalls : (m.advance t choice).1 =
      adopt ⟨s', m.calls.set t (call' :: outer)⟩ call'.child? := by
    simp only [advance, hget, hstep]
  constructor
  · rw [hcalls]
    generalize adopt ⟨s', m.calls.set t (call' :: outer)⟩ call'.child? = m' at hsee
    cases hcall : m'.call? t with
    | none => simp [see, hcall] at hsee
    | some call'' => rwa [see_of_call? hcall] at hsee
  · rw [advance_store choice hget, hstep, Progress.storeFrom]

/-- How a call that runs none of its client's code came to be the innermost one of thread `t`. -/
inductive Arises (m : Machine) (move : Move) (m' : Machine) (t : Tid) (call' : Call) : Prop
  | idle (hcall : m.call? t = some call')
    (hmove : (∀ choice, move ≠ .advance t choice) ∨ m' = m)
  | begun (hmove : move = .begin t call') (hfresh : call'.isFresh = true)
  | resumed {e : BodyEnd} {call : Call} (hmove : move = .endBody t e)
    (hcall : m.call? t = some call) (hbody : call.atBody = true) (heq : call' = call.resume e)
  | next {choice : Choice} {call : Call} (hmove : move = .advance t choice)
    (hcall : m.call? t = some call) (hstep : call.step t choice m.store = .next m'.store call')
  | born {id : ThreadId} (heq : call' = .install id)

/-- A call that runs none of its client's code after a step of its thread has gone on to that. -/
theorem Sound.next_of_advance (hsound : m.Sound) {choice : Choice} {call' : Call}
    (h : (m.advance t choice).1.call? t = some call') (hbody : call'.atBody = false)
    (hmoves : (m.advance t choice).2 ≠ .blocked) :
    ∃ call, m.call? t = some call ∧
      call.step t choice m.store = .next (m.advance t choice).1.store call' := by
  cases hget : m.calls.get t with
  | nil => exact absurd (by simp only [advance, hget]) hmoves
  | cons call outer =>
    -- the calls below run code of the client's
    have hlast (s' : Store) (heq : (m.advance t choice).1 = ⟨s', m.calls.set t outer⟩) : False := by
      rw [heq, call?, Table.get_set_self] at h
      have houter := hsound.waiting t call outer hget call' (List.mem_of_head? h)
      simp [hbody] at houter
    cases hstep : call.step t choice m.store with
    | next s' call'' =>
      obtain ⟨hcall, hstore⟩ := hsound.call?_of_next hget hstep
      obtain rfl : call' = call'' := Option.some.inj (h.symm.trans hcall)
      exact ⟨call, call?_of_get hget, hstep.trans (by rw [hstore])⟩
    | blocked => exact absurd (by simp only [advance, hget, hstep]) hmoves
    | done s' reply => exact (hlast s' (by simp only [advance, hget, hstep])).elim
    | fault s' why => exact (hlast s' (by simp only [advance, hget, hstep])).elim
    | abort s' => exact (hlast s' (by simp only [advance, hget, hstep])).elim

/-- A step that cannot be taken changes nothing. -/
theorem same_of_blocked {choice : Choice} (h : (m.advance t choice).2 = .blocked) :
    (m.advance t choice).1 = m := by
  unfold advance at h ⊢
  split at h
  · rfl
  · split at h <;> first | rfl | (split at h <;> cases h) | cases h

/-- A thread's own step leaves everything as it is, or its call goes on. -/
theorem Sound.arises_advance (hsound : m.Sound) {choice : Choice} {call' : Call}
    (h : (m.advance t choice).1.call? t = some call') (hbody : call'.atBody = false) :
    m.Arises (.advance t choice) (m.advance t choice).1 t call' := by
  by_cases hblocked : (m.advance t choice).2 = .blocked
  · have hsame := same_of_blocked hblocked
    exact .idle (hsame ▸ h) (.inr hsame)
  · obtain ⟨call, hcall, hstep⟩ := hsound.next_of_advance h hbody hblocked
    exact .next rfl hcall hstep

/-- A call that runs none of its client's code was there before, or arose in this move. -/
theorem Sound.arises (hsound : m.Sound) (hallows : m.allows move = true) {call' : Call}
    (h : (m.apply move).call? t = some call') (hbody : call'.atBody = false) :
    m.Arises move (m.apply move) t call' := by
  by_cases hown : ∃ choice, move = .advance t choice
  · obtain ⟨choice, rfl⟩ := hown
    exact hsound.arises_advance h hbody
  · have hothers (choice : Choice) : move ≠ .advance t choice := fun heq => hown ⟨choice, heq⟩
    obtain ⟨outer, hget⟩ := List.head?_eq_some_iff.1 h
    cases (change_apply hallows).turned hsound (frame_head hget) with
    | kept hframe =>
      obtain ⟨outer', hget', -⟩ := get_of_frame hsound hframe hbody
      exact .idle (call?_of_get hget') (.inl hothers)
    | begun hmove hfresh => exact .begun hmove hfresh
    | resumed hmove hget' hbody' _ hcall => exact .resumed hmove (call?_of_get hget') hbody' hcall
    | next hmove => exact absurd hmove (hothers _)
    | born _ hcall => exact .born hcall

/-! ## The calls of one thread

Seen from one thread, most moves are somebody else's. `Stacked` lists what the others leave: the
thread begins a call, resumes one, takes a step that goes on or a last one; or it is born. With it
the history of a call at a fixed depth is followed forwards (`Continued`). -/

/-- What a move does to the calls of thread `t`. -/
inductive Stacked (m : Machine) (move : Move) (m' : Machine) (t : Tid) : Prop
  /-- The move is none of the thread's steps, or one that cannot be taken. -/
  | same (hcalls : m'.calls.get t = m.calls.get t)
    (hidle : ∀ choice, move = .advance t choice → (m.advance t choice).2 = .blocked)
  | begun {call : Call} (hmove : move = .begin t call) (hfresh : call.isFresh = true)
    (hclient : m.inClient t = true) (hcalls : m'.calls.get t = call :: m.calls.get t)
    (hstore : m'.store = m.store)
  | resumed {e : BodyEnd} {call : Call} {outer : List Call} (hmove : move = .endBody t e)
    (hget : m.calls.get t = call :: outer) (hbody : call.atBody = true)
    (hcalls : m'.calls.get t = call.resume e :: outer) (hstore : m'.store = m.store)
  | next {choice : Choice} {call call' : Call} {outer : List Call}
    (hmove : move = .advance t choice) (hget : m.calls.get t = call :: outer)
    (hstep : call.step t choice m.store = .next m'.store call')
    (hcalls : m'.calls.get t = call' :: outer)
  | last {choice : Choice} {call : Call} {outer : List Call} (hmove : move = .advance t choice)
    (hget : m.calls.get t = call :: outer) (hends : (call.step t choice m.store).Ends m'.store)
    (hcalls : m'.calls.get t = outer)
  | born {id : ThreadId} (hthread : t = m.store.nextThread) (hnew : m.calls.get t = [])
    (hcalls : m'.calls.get t = [.install id])

/-- A step of some thread, seen from thread `t`: its own one, nothing, or its birth. -/
theorem Sound.stacked_advance (hsound : m.Sound) (t u : Tid) (choice : Choice) :
    m.Stacked (.advance u choice) (m.advance u choice).1 t := by
  cases hget : m.calls.get u with
  | nil =>
    refine .same (by simp only [advance, hget]) ?_
    rintro choice' ⟨⟩
    simp only [advance, hget]
  | cons call outer =>
    have hstore := advance_store choice hget
    -- the calls of the other threads stay, but for a thread that is born
    have hothers {stack : List Call} (ht : t ≠ u)
        (hcalls : (m.advance u choice).1.calls = m.calls.set u stack) :
        m.Stacked (.advance u choice) (m.advance u choice).1 t :=
      .same (by rw [hcalls, Table.get_set_of_ne _ _ ht]) (by rintro choice' ⟨⟩; exact absurd rfl ht)
    have hlast {s' : Store} (hends : (call.step u choice m.store).Ends s')
        (heq : (m.advance u choice).1 = ⟨s', m.calls.set u outer⟩) :
        m.Stacked (.advance u choice) (m.advance u choice).1 t := by
      by_cases ht : t = u
      · subst ht
        exact .last rfl hget (by rw [heq]; exact hends) (by rw [heq, Table.get_set_self])
      · exact hothers ht (by rw [heq])
    cases hstep : call.step u choice m.store with
    | next s' call' =>
      have heq : (m.advance u choice).1 =
          adopt ⟨s', m.calls.set u (call' :: outer)⟩ call'.child? := by
        simp only [advance, hget, hstep]
      rw [hstep] at hstore
      cases hchild : call'.child? with
      | none =>
        rw [hchild] at heq
        by_cases ht : t = u
        · subst ht
          exact .next rfl hget (by rw [hstep, hstore]; rfl)
            (by rw [heq]; exact Table.get_set_self ..)
        · exact hothers ht (by rw [heq]; rfl)
      | some pair =>
        obtain ⟨child, id⟩ := pair
        obtain ⟨rfl, -⟩ := Call.child_of_step hstep hchild
        rw [hchild] at heq
        have hne : u ≠ m.store.nextThread := Nat.ne_of_lt (hsound.born hget)
        have hcalls (v : Tid) (hv : v ≠ m.store.nextThread) :
            (m.advance u choice).1.calls.get v = (m.calls.set u (call' :: outer)).get v := by
          rw [heq]
          exact Table.get_set_of_ne _ _ hv
        by_cases ht : t = u
        · subst ht
          refine .next rfl hget (by rw [hstep, hstore]; rfl) ?_
          rw [hcalls t hne, Table.get_set_self]
        · by_cases hchild' : t = m.store.nextThread
          · subst hchild'
            have hborn : (m.advance u choice).1.calls.get m.store.nextThread = [.install id] := by
              rw [heq]
              exact Table.get_set_self ..
            exact .born rfl (hsound.unborn _ (Nat.le_refl _)) hborn
          · exact .same (by rw [hcalls t hchild', Table.get_set_of_ne _ _ ht])
              (by rintro choice' ⟨⟩; exact absurd rfl ht)
    | blocked =>
      refine .same (by simp only [advance, hget, hstep]) ?_
      rintro choice' ⟨⟩
      simp only [advance, hget, hstep]
    | done s' reply => exact hlast (by rw [hstep]; exact rfl) (by simp only [advance, hget, hstep])
    | fault s' why => exact hlast (by rw [hstep]; exact rfl) (by simp only [advance, hget, hstep])
    | abort s' => exact hlast (by rw [hstep]; exact rfl) (by simp only [advance, hget, hstep])

/-- Every possible move does one of these things to the calls of a thread. -/
theorem Sound.stacked (hsound : m.Sound) (hallows : m.allows move = true) (t : Tid) :
    m.Stacked move (m.apply move) t := by
  cases move with
  | advance u choice => exact hsound.stacked_advance t u choice
  | begin u call =>
    simp only [allows, Bool.and_eq_true] at hallows
    by_cases ht : t = u
    · subst ht
      exact .begun rfl hallows.1.2 hallows.1.1 (Table.get_set_self ..) rfl
    · exact .same (Table.get_set_of_ne _ _ ht) (by simp)
  | endBody u e =>
    by_cases ht : t = u
    · subst ht
      cases hget : m.calls.get t with
      | nil => simp [allows, call?, hget] at hallows
      | cons call outer =>
        have heq : m.apply (.endBody t e) =
            { m with calls := m.calls.set t (call.resume e :: outer) } := endBody_of_get hget e
        exact .resumed rfl hget (by simpa [allows, call?, hget] using hallows)
          (by rw [heq]; exact Table.get_set_self ..) (by rw [heq])
    · refine .same ?_ (by simp)
      simp only [apply, endBody]
      split
      · rfl
      · exact Table.get_set_of_ne _ _ ht
  | create | spawn | exit | tick => exact .same rfl (by simp)

/-- How a call that lasts through a move came to its phase. -/
inductive Continued (m : Machine) (move : Move) (m' : Machine) (t : Tid) (d : Nat) (call : Call) :
    Call → Prop
  /-- Its thread moves in a call above it, or not at all. -/
  | kept (hidle : call.atBody = true ∨
      ∀ choice, move = .advance t choice → (m.advance t choice).2 = .blocked) :
    Continued m move m' t d call call
  | resumed {e : BodyEnd} {outer : List Call} (hmove : move = .endBody t e)
    (hget : m.calls.get t = call :: outer) (hdepth : d = outer.length)
    (hbody : call.atBody = true) (hstore : m'.store = m.store) :
    Continued m move m' t d call (call.resume e)
  | next {choice : Choice} {call' : Call} {outer : List Call} (hmove : move = .advance t choice)
    (hget : m.calls.get t = call :: outer) (hdepth : d = outer.length)
    (hstep : call.step t choice m.store = .next m'.store call') :
    Continued m move m' t d call call'

/-- A call that is at its depth before and after a move has come to its phase in one of these
ways. -/
theorem Stacked.continued {call' : Call} (h : m.Stacked move m' t) (hsound : m.Sound)
    (hframe : m.frame t d = some call) (hframe' : m'.frame t d = some call') :
    m.Continued move m' t d call call' := by
  have hlt := lt_of_frame hframe
  -- a call that is not the innermost one runs its client's code
  have hbelow {call₀ : Call} {outer : List Call} (hget : m.calls.get t = call₀ :: outer)
      (hd : d ≠ outer.length) : call.atBody = true ∧ outer.reverse[d]? = some call := by
    rw [frame_of_get hget, if_neg hd] at hframe
    exact ⟨hsound.waiting t call₀ outer hget call
      (List.mem_reverse.1 (List.mem_of_getElem? hframe)), hframe⟩
  have hhead {call₀ : Call} {outer : List Call} (hget : m.calls.get t = call₀ :: outer)
      (hd : d = outer.length) : call₀ = call := by
    rw [hd, frame_head hget] at hframe
    exact Option.some.inj hframe
  cases h with
  | same hcalls hidle =>
    rw [frame, hcalls, ← frame, hframe] at hframe'
    cases hframe'
    exact .kept (.inr hidle)
  | begun hmove hfresh hclient hcalls =>
    rw [frame_of_get hcalls, if_neg (Nat.ne_of_lt hlt), ← frame, hframe] at hframe'
    cases hframe'
    exact .kept (.inr (by simp [hmove]))
  | @resumed e call₀ outer hmove hget hbody hcalls hstore =>
    rw [frame_of_get hcalls] at hframe'
    by_cases hd : d = outer.length
    · obtain rfl := hhead hget hd
      rw [if_pos hd] at hframe'
      cases hframe'
      exact .resumed hmove hget hd hbody hstore
    · rw [if_neg hd, (hbelow hget hd).2] at hframe'
      cases hframe'
      exact .kept (.inl (hbelow hget hd).1)
  | @next choice call₀ call'' outer hmove hget hstep hcalls =>
    rw [frame_of_get hcalls] at hframe'
    by_cases hd : d = outer.length
    · obtain rfl := hhead hget hd
      rw [if_pos hd] at hframe'
      cases hframe'
      exact .next hmove hget hd hstep
    · rw [if_neg hd, (hbelow hget hd).2] at hframe'
      cases hframe'
      exact .kept (.inl (hbelow hget hd).1)
  | @last choice call₀ outer hmove hget hends hcalls =>
    rw [frame, hcalls] at hframe'
    have hd : d ≠ outer.length := by
      rintro rfl
      simp at hframe'
    rw [(hbelow hget hd).2] at hframe'
    cases hframe'
    exact .kept (.inl (hbelow hget hd).1)
  | born _ hnew => simp [hnew] at hlt

end Machine

namespace Run

/-- Move `i` is none of the steps of thread `t`, or one that cannot be taken. -/
def Idle (r : Run) (t : Tid) (i : Nat) : Prop :=
  ∀ choice, r.move i = .advance t choice → ((r.state i).advance t choice).2 = .blocked

theorem stacked (r : Run) (i : Nat) (t : Tid) :
    (r.state i).Stacked (r.move i) (r.state (i + 1)) t :=
  (r.state_sound i).stacked (r.state_allows i) t

end Run

end Interlock
