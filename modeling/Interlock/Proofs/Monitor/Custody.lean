import Interlock.Proofs.Sight
import Interlock.Proofs.Condition.Return

/-!
# Objects from their creation to their destruction

An object belongs to the client that created it, until it is given up to a destruction. Clients
that destroy nothing but what is theirs, and share no monitor but theirs, destroy every object once
at most, and only after it was created.

  * `Creation.object?`: the object that a creation makes. Handles are given out in order, so each of
    them belongs to one creation (`Run.made_together`);
  * `Run.Live`: an object has been created and not yet destroyed. `Run.Owned`: it has been created
    and not yet given up;
  * `Run.Owning`: clients destroy and share what they own. Then what is destroyed is alive until
    then (`Run.Destroys.live`);
  * `Run.Passage`: a move creates an object, or destroys one, or leaves all of them where they are.
-/

namespace Interlock

/-! ## Creations

An object is named by a handle, and a creation takes as many handles as it makes parts. The object
itself has the last of them, so its handle tells when it was created. -/

/-- The object that a creation makes. -/
def Creation.object? (s : Store) : Creation → Option Object
  | mutex ready => some (.mutex (s.addMutex (if ready then .ready else .raw)).2)
  | condition => some (.condition (s.addCond .raw).2)
  | once => some (.once s.addOnce.2)
  | monitor backend => some (.monitor (s.addMonitor backend).2)
  | sharing mo => some (.monitor (s.shareMonitor mo).2)
  | semaphore permits =>
    match s.addSemaphore? permits with
    | .ok (_, r) => some (.semaphore r)
    | .error _ => none
  | events => some (.events s.addEvents.2)
  | thread name stackSize => some (.thread (s.addThread name stackSize).2)

theorem Store.reportName?_nextHandle (s : Store) (name : Option String) :
    (s.reportName? name).nextHandle = s.nextHandle := by
  obtain ⟨log, hreport⟩ := s.exists_reportName?_eq name
  rw [hreport]

/-- A semaphore is created only with valid permits. -/
theorem Creation.eq_of_semaphore {s : Store} {permits : Permits} {o : Object}
    (h : (semaphore permits).object? s = some o) :
    o = .semaphore s.nextHandle ∧ permits.valid = true := by
  simp only [object?, Store.addSemaphore?] at h
  cases hvalid : permits.valid <;> simp only [hvalid, if_true, if_false, Bool.false_eq_true,
    reduceCtorEq, Option.some.injEq] at h
  exact ⟨h.symm, rfl⟩

/-- The object that a creation makes has the last of the handles that the creation takes. -/
theorem Creation.handle_of_object {s : Store} {c : Creation} {o : Object}
    (h : c.object? s = some o) :
    s.nextHandle ≤ o.handle ∧ (c.apply s).nextHandle = o.handle + 1 := by
  cases c with
  | semaphore permits =>
    obtain ⟨rfl, hvalid⟩ := eq_of_semaphore h
    simp only [apply, Store.addSemaphore?, hvalid, if_true]
    exact ⟨Nat.le_refl _, rfl⟩
  | thread name stackSize =>
    have hreport := s.reportName?_nextHandle name
    cases h
    exact ⟨Nat.le_of_eq hreport.symm, rfl⟩
  | mutex | condition | events =>
    cases h
    exact ⟨Nat.le_refl _, rfl⟩
  | once | monitor | sharing =>
    cases h
    exact ⟨by simp only [Object.handle, Store.addOnce, Store.addMonitor, Store.shareMonitor,
      Store.addMonitorOver, Store.addMutex, Store.addCond, Store.takeHandle, Store.setMutex,
      Store.setCond]; omega, rfl⟩

/-- The object that a client must own to make a move. -/
def Move.needs? : Move → Option Object
  | .begin _ (.destroy o _) => some o
  | .create (.sharing mo) => some (.monitor mo)
  | _ => none

/-- It was so before `i` that `p`, and since then it has not been so that `q`. -/
def Since (p q : Nat → Prop) (i : Nat) : Prop := ∃ j < i, p j ∧ ∀ k < i, j < k → ¬ q k

/-- What holds since some time at the next moment holds because of this one, or did so before and
was not ended. -/
theorem since_succ {p q : Nat → Prop} {i : Nat} :
    Since p q (i + 1) ↔ p i ∨ Since p q i ∧ ¬ q i := by
  constructor
  · rintro ⟨j, hj, hp, hkept⟩
    rcases Nat.lt_or_eq_of_le (Nat.le_of_lt_succ hj) with hji | rfl
    · exact .inr ⟨⟨j, hji, hp, fun k hk => hkept k (Nat.lt_succ_of_lt hk)⟩,
        hkept i (Nat.lt_succ_self i) hji⟩
    · exact .inl hp
  · rintro (hp | ⟨⟨j, hj, hp, hkept⟩, hnot⟩)
    · exact ⟨i, Nat.lt_succ_self i, hp, fun k hk hik => by omega⟩
    · refine ⟨j, Nat.lt_succ_of_lt hj, hp, fun k hk hjk => ?_⟩
      rcases Nat.lt_or_eq_of_le (Nat.le_of_lt_succ hk) with hki | rfl
      · exact hkept k hki hjk
      · exact hnot

namespace Run

/-! ## Objects of a run

In the program the owner of an object drops it, once, and the type system sees to that. Here a
move can begin to destroy any object, so the discipline is a condition on the run (`Owning`), and
its consequences are proved: an object is created once, and it is alive from then until it is
destroyed. -/

/-- In move `i` a client creates object `o`. -/
def Creates (r : Run) (o : Object) (i : Nat) : Prop :=
  ∃ c, r.move i = .create c ∧ c.object? (r.state i).store = some o

/-- In move `i` object `o` is given up to a destruction. -/
def Surrenders (r : Run) (o : Object) (i : Nat) : Prop :=
  ∃ t unwinding, r.move i = .begin t (.destroy o unwinding)

/-- In move `i` object `o` is destroyed. -/
def Destroys (r : Run) (o : Object) (i : Nat) : Prop :=
  ∃ t choice unwinding, r.move i = .advance t choice ∧
    (r.state i).call? t = some (.destroy o unwinding)

/-- Object `o` has been created before move `i`, and not been given up since. -/
def Owned (r : Run) (o : Object) (i : Nat) : Prop := Since (r.Creates o) (r.Surrenders o) i

/-- Object `o` has been created before move `i`, and not been destroyed since. -/
def Live (r : Run) (o : Object) (i : Nat) : Prop := Since (r.Creates o) (r.Destroys o) i

/-- Clients destroy nothing but what they own, and share no monitor but one they own. -/
def Owning (r : Run) : Prop := ∀ i o, (r.move i).needs? = some o → r.Owned o i

variable {r : Run} {o o' : Object} {i j k : Nat} {t : Tid} {unwinding : Bool}

/-- A creation gives out the next handles. -/
theorem creates_handle (h : r.Creates o i) : (r.state i).store.nextHandle ≤ o.handle ∧
    (r.state (i + 1)).store.nextHandle = o.handle + 1 := by
  obtain ⟨c, hmove, hobject⟩ := h
  have hhandle := Creation.handle_of_object hobject
  rw [state_succ, hmove]
  exact hhandle

/-- No two moves give out the same handle. -/
theorem made_together {n : Nat} (hi : (r.state i).store.nextHandle ≤ n)
    (hi' : n < (r.state (i + 1)).store.nextHandle) (hj : (r.state j).store.nextHandle ≤ n)
    (hj' : n < (r.state (j + 1)).store.nextHandle) : i = j := by
  have hlater {i j : Nat} (hi' : n < (r.state (i + 1)).store.nextHandle)
      (hj : (r.state j).store.nextHandle ≤ n) : j ≤ i := by
    apply Nat.le_of_not_lt
    intro hij
    exact absurd (Nat.lt_of_lt_of_le hi' (r.nextHandle_mono hij)) (Nat.not_lt.2 hj)
  exact Nat.le_antisymm (hlater hj' hi) (hlater hi' hj)

/-- A move creates one object at most. -/
theorem Creates.same (h : r.Creates o i) (h' : r.Creates o' i) : o = o' := by
  obtain ⟨c, hmove, hobject⟩ := h
  obtain ⟨c', hmove', hobject'⟩ := h'
  cases hmove.symm.trans hmove'
  exact Option.some.inj (hobject.symm.trans hobject')

/-- An object is created once, and no other one with its handle. -/
theorem Creates.unique (h : r.Creates o i) (h' : r.Creates o' j) (hhandle : o.handle = o'.handle) :
    i = j ∧ o = o' := by
  obtain ⟨hi, hi'⟩ := creates_handle h
  obtain ⟨hj, hj'⟩ := creates_handle h'
  obtain rfl : i = j := made_together (n := o.handle) hi (by omega) (by omega) (by omega)
  exact ⟨rfl, h.same h'⟩

/-- An object that is alive has a handle that was given out. -/
theorem Live.handle_lt (h : r.Live o i) : o.handle < (r.state i).store.nextHandle := by
  obtain ⟨j, hji, hnew, -⟩ := h
  have hhandle := (creates_handle hnew).2
  have hmono := r.nextHandle_mono (show j + 1 ≤ i from hji)
  omega

/-- An object is alive after a move if it has just been created, or was alive and has not just been
destroyed. -/
theorem live_succ : r.Live o (i + 1) ↔ r.Creates o i ∨ r.Live o i ∧ ¬ r.Destroys o i := since_succ

/-! ## Destructions

A destruction is begun by its client and carried out in one step, and nobody works on the object
between the two. -/

/-- A destruction in progress was begun some time ago, and its thread has taken no step since. -/
theorem exists_surrenders (h : (r.state i).call? t = some (.destroy o unwinding)) :
    ∃ a < i, r.move a = .begin t (.destroy o unwinding) ∧
      ∀ k < i, a < k → ∀ choice, r.move k ≠ .advance t choice := by
  induction i with
  | zero => cases h
  | succ i ih =>
    obtain ⟨outer', hget'⟩ := List.head?_eq_some_iff.1 h
    cases r.stacked i t with
    | same hcalls hidle =>
      have hget : (r.state i).calls.get t = .destroy o unwinding :: outer' := hcalls ▸ hget'
      obtain ⟨a, hai, hbegin, hnone⟩ := ih (Machine.call?_of_get hget)
      refine ⟨a, Nat.lt_succ_of_lt hai, hbegin, fun k hk hak choice hmove => ?_⟩
      rcases Nat.lt_or_eq_of_le (Nat.le_of_lt_succ hk) with hki | rfl
      · exact hnone k hki hak choice hmove
      -- a destruction is never blocked
      · have hends := Call.ends_destroy t choice (r.state k).store o unwinding
        rw [(Machine.advance_blocked hget).1 (hidle choice hmove)] at hends
        exact hends
    | begun hmove _ _ hcalls =>
      cases hcalls.symm.trans hget'
      exact ⟨i, Nat.lt_succ_self i, hmove, fun k hk hik => by omega⟩
    | @resumed e call outer _ _ hbody hcalls =>
      cases call <;> cases hcalls.symm.trans hget'
      cases hbody
    | @next choice call call' outer _ _ hstep hcalls =>
      cases hcalls.symm.trans hget'
      have hkind := Call.origin_of_step hstep
      cases call <;> cases hkind
      have hends := Call.ends_destroy t choice (r.state i).store o unwinding
      rw [hstep] at hends
      exact hends.elim
    | @last choice call outer _ hget _ hcalls =>
      cases hcalls.symm.trans hget'
      cases (r.state_sound i).waiting t call _ hget _ List.mem_cons_self
    | born _ _ hcalls => cases hcalls.symm.trans hget'

theorem Owning.surrenders (h : r.Owning) (hgives : r.Surrenders o i) : r.Owned o i := by
  obtain ⟨t, unwinding, hmove⟩ := hgives
  exact h i o (by rw [hmove]; rfl)

/-- What its owner has not given up has not been destroyed. -/
theorem Owned.live (h : r.Owned o i) (hown : r.Owning) : r.Live o i := by
  obtain ⟨j, hji, hnew, hkept⟩ := h
  refine ⟨j, hji, hnew, fun k hk hjk ⟨t, choice, unwinding, hmove, hcall⟩ => ?_⟩
  obtain ⟨a, hak, hbegin, -⟩ := exists_surrenders hcall
  obtain ⟨j', hja, hnew', -⟩ := hown.surrenders ⟨t, unwinding, hbegin⟩
  obtain rfl := (hnew.unique hnew' rfl).1
  exact hkept a (Nat.lt_trans hak hk) hja ⟨t, unwinding, hbegin⟩

/-- What is destroyed was alive until then. -/
theorem Destroys.live (h : r.Destroys o i) (hown : r.Owning) : r.Live o i := by
  obtain ⟨t, choice, unwinding, hmove, hcall⟩ := h
  obtain ⟨a, hai, hbegin, hidle⟩ := exists_surrenders hcall
  obtain ⟨j, hja, hnew, hkept⟩ := hown.surrenders ⟨t, unwinding, hbegin⟩
  refine ⟨j, Nat.lt_trans hja hai, hnew, ?_⟩
  rintro n hni hjn ⟨t', choice', unwinding', hmove', hcall'⟩
  obtain ⟨a', han, hbegin', -⟩ := exists_surrenders hcall'
  obtain ⟨j', hja', hnew', hkept'⟩ := hown.surrenders ⟨t', unwinding', hbegin'⟩
  obtain rfl := (hnew.unique hnew' rfl).1
  -- an object is given up once, and its destruction has not gone on since
  rcases Nat.lt_trichotomy a a' with haa | rfl | haa
  · exact hkept' a haa hja ⟨t, unwinding, hbegin⟩
  · cases hbegin.symm.trans hbegin'
    exact hidle n hni han choice' hmove'
  · exact hkept a' haa hja' ⟨t', unwinding', hbegin'⟩

/-- A move destroys one object at most. -/
theorem Destroys.same (h : r.Destroys o i) (h' : r.Destroys o' i) : o = o' := by
  obtain ⟨t, choice, unwinding, hmove, hcall⟩ := h
  obtain ⟨t', choice', unwinding', hmove', hcall'⟩ := h'
  cases hmove.symm.trans hmove'
  cases hcall.symm.trans hcall'
  rfl

/-- No call in progress works on an object that is being destroyed. -/
theorem Destroys.unused (h : r.Destroys o i) : (r.state i).unused o = true := by
  obtain ⟨t, choice, unwinding, hmove, hcall⟩ := h
  have hallows := r.state_allows i
  rw [hmove] at hallows
  simpa [Machine.allows, hcall] using hallows

theorem not_destroys_of_create {c : Creation} (hmove : r.move i = .create c) (o : Object) :
    ¬ r.Destroys o i := by
  rintro ⟨t, choice, unwinding, hmove', -⟩
  cases hmove.symm.trans hmove'

theorem Creates.not_destroys (h : r.Creates o i) : ¬ r.Destroys o' i := by
  obtain ⟨c, hmove, -⟩ := h
  exact not_destroys_of_create hmove o'

end Run

/-! ## Moves

For the objects there are three kinds of moves: creations, destructions, and all the others, which
keep up what there is. -/

/-- What a step of a call that destroys nothing leaves of the objects: all of them are there, and
what was initialized is so still. -/
structure Store.Upkeep (s s' : Store) : Prop where
  nextHandle : s'.nextHandle = s.nextHandle
  monitors : s'.monitors = s.monitors
  lockUsers : s'.lockUsers = s.lockUsers
  locks : ∀ l, s.lock l ≠ none → s'.lock l ≠ none
  conds : s.Upholds s'

/-- Every other call keeps the objects up. -/
theorem Call.step_upkeep {t : Tid} {choice : Choice} {s : Store} {call : Call}
    (hme : s.Owns t call.me?) (hdestroy : ∀ o unwinding, call ≠ .destroy o unwinding) :
    (call.step t choice s).Keeps s.Upkeep := by
  have hlocks : (call.step t choice s).Keeps fun s' => ∀ l, s.lock l ≠ none → s'.lock l ≠ none := by
    have hstep (l : LockRef) : (call.step t choice s).Locks t l s (call.grip l s) :=
      step_locks l hme hdestroy
    generalize call.step t choice s = p at hstep
    cases p <;> first | trivial | exact fun l => (hstep l).stays
  have hframe : (call.step t choice s).Keeps s.Frame := call.step_frame
  have husers : (call.step t choice s).Keeps (·.lockUsers = s.lockUsers) := step_lockUsers hdestroy
  have hconds : (call.step t choice s).Keeps s.Upholds := step_upholds hdestroy
  generalize call.step t choice s = p at hlocks hframe husers hconds
  cases p <;> first
    | trivial
    | exact ⟨hframe.nextHandle, hframe.monitors, husers, hlocks, hconds⟩

namespace Run

variable {r : Run} {o : Object} {i : Nat}

/-- What a move does to the objects of a run. -/
inductive Passage (r : Run) (i : Nat) : Prop
  | created {c : Creation} (hmove : r.move i = .create c)
    (hstore : (r.state (i + 1)).store = c.apply (r.state i).store)
  | destroyed {o : Object} {unwinding : Bool} (h : r.Destroys o i)
    (hstore : (r.state (i + 1)).store = ((r.state i).store.destroy o unwinding).1)
  | kept (hcreate : ∀ o, ¬ r.Creates o i) (hdestroy : ∀ o, ¬ r.Destroys o i)
    (hstore : (r.state i).store.Upkeep (r.state (i + 1)).store)

/-- Every move is one of the three. -/
theorem passage (r : Run) (i : Nat) : r.Passage i := by
  -- what is neither a creation nor a destruction keeps the store in these respects
  have hsame {s' : Store} (hhandle : s'.nextHandle = (r.state i).store.nextHandle := by rfl)
      (hmonitors : s'.monitors = (r.state i).store.monitors := by rfl)
      (husers : s'.lockUsers = (r.state i).store.lockUsers := by rfl)
      (hlocks : s'.locks = (r.state i).store.locks := by rfl)
      (hconds : s'.conds = (r.state i).store.conds := by rfl) :
      (r.state i).store.Upkeep s' :=
    ⟨hhandle, hmonitors, husers, fun l => by simp only [Store.lock, hlocks, imp_self],
      .of_same hconds⟩
  have hcreate (hmove : ∀ c, r.move i ≠ .create c) (o : Object) : ¬ r.Creates o i := by
    rintro ⟨c, heq, -⟩
    exact hmove c heq
  have hdestroy (hmove : ∀ t choice, r.move i ≠ .advance t choice) (o : Object) :
      ¬ r.Destroys o i := by
    rintro ⟨t, choice, -, heq, -⟩
    exact hmove t choice heq
  cases hmove : r.move i with
  | create c => exact .created hmove (by rw [state_succ, hmove]; rfl)
  | advance t choice =>
    cases hcall : (r.state i).call? t with
    | none =>
      refine .kept (hcreate (by simp [hmove])) ?_ ?_
      · rintro o ⟨t', choice', unwinding, hmove', hcall'⟩
        cases hmove.symm.trans hmove'
        cases hcall.symm.trans hcall'
      · rw [state_of_none hmove hcall]
        exact hsame
    | some call =>
      have hstore := (performs_of_move hmove hcall).2
      by_cases hkind : ∃ o unwinding, call = .destroy o unwinding
      · obtain ⟨o, unwinding, rfl⟩ := hkind
        exact .destroyed ⟨t, choice, unwinding, hmove, hcall⟩
          (hstore.trans (Call.ends_destroy t choice _ o unwinding).storeFrom)
      · have hkept : (call.step t choice (r.state i).store).Keeps (r.state i).store.Upkeep :=
          Call.step_upkeep ((r.state_identified i).owns hcall) fun o unwinding heq =>
            hkind ⟨o, unwinding, heq⟩
        refine .kept (hcreate (by simp [hmove])) ?_ ?_
        · rintro o ⟨t', choice', unwinding, hmove', hcall'⟩
          cases hmove.symm.trans hmove'
          cases hcall.symm.trans hcall'
          exact hkind ⟨o, unwinding, rfl⟩
        · rw [hstore]
          exact hkept.storeFrom hsame
  | endBody t e =>
    refine .kept (hcreate (by simp [hmove])) (hdestroy (by simp [hmove])) ?_
    rw [state_succ, hmove, Machine.apply, Machine.endBody_store]
    exact hsame
  | _ =>
    refine .kept (hcreate (by simp [hmove])) (hdestroy (by simp [hmove])) ?_
    rw [state_succ, hmove]
    exact hsame

/-- What a destruction leaves. -/
theorem Destroys.store (h : r.Destroys o i) : ∃ unwinding,
    (r.state (i + 1)).store = ((r.state i).store.destroy o unwinding).1 := by
  cases r.passage i with
  | created hmove => exact absurd h (not_destroys_of_create hmove o)
  | @destroyed o' unwinding h' hstore => exact ⟨unwinding, h.same h' ▸ hstore⟩
  | kept _ hdestroy => exact absurd h (hdestroy o)

/-! ### Finite runs

For a list of moves the discipline is checked by computation: the list of what is owned is followed
along the moves. -/

/-- What clients own after a move, of what they owned before and what the move makes. -/
def owned? (r : Run) : Nat → List Object
  | 0 => []
  | i + 1 =>
    match r.move i with
    | .create c => (c.object? (r.state i).store).toList ++ r.owned? i
    | .begin _ (.destroy o _) => (r.owned? i).filter (· ≠ o)
    | _ => r.owned? i

/-- What is in the list is owned. -/
theorem owned_of_mem (h : o ∈ r.owned? i) : r.Owned o i := by
  induction i with
  | zero => cases h
  | succ i ih =>
    refine since_succ.2 ?_
    rw [owned?] at h
    split at h
    · rename_i c hmove
      rcases List.mem_append.1 h with hnew | hmem
      · exact .inl ⟨c, hmove, Option.mem_toList.1 hnew⟩
      · refine .inr ⟨ih hmem, fun ⟨t, unwinding, hmove'⟩ => ?_⟩
        cases hmove.symm.trans hmove'
    · rename_i t o' unwinding hmove
      obtain ⟨hmem, hne⟩ := List.mem_filter.1 h
      refine .inr ⟨ih hmem, fun ⟨t', unwinding', hmove'⟩ => ?_⟩
      cases hmove.symm.trans hmove'
      simp at hne
    · rename_i hmove
      exact .inr ⟨ih h, fun ⟨t, unwinding, hmove'⟩ => hmove t o unwinding hmove'⟩

/-- A list of moves keeps to the discipline if each of them takes from the list of what is owned. -/
theorem owning_ofList {moves : List Move} (h : feasible .initial moves = true)
    (hown : ∀ i < moves.length,
      (extend moves i).needs?.all ((ofList moves h).owned? i).contains = true) :
    (ofList moves h).Owning := by
  intro i o hneeds
  have hneeds : (extend moves i).needs? = some o := hneeds
  by_cases hi : i < moves.length
  · have hmem := hown i hi
    rw [hneeds, Option.all_some, List.contains_iff_mem] at hmem
    exact owned_of_mem hmem
  · rw [extend, List.getD_eq_getElem?_getD, List.getElem?_eq_none (by omega)] at hneeds
    cases hneeds

end Run

end Interlock
