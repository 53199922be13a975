import Interlock.Proofs.Condition.Return
import Interlock.Proofs.Once.Passage

/-!
# Guards and unlocked sections balance

A thread may nest guard scopes, and unlocked sections of the guards around them, as it likes, and
leave any of them by a panic that it catches further out. The calls that it is in then tell which
mutexes it has.

  * `Call.stance`: what a guard scope or an unlocked section says about whether its thread has the
    mutex. A step turns this as it treats the platform lock (`ScopePhase.step_stance`,
    `UnlockedPhase.step_stance`);
  * `heldIn`: whether a thread in these calls has a mutex, read off the innermost one that says;
  * `Run.Poised`: the calls of a thread tell what it has, and `Run.Poised.step`: they go on doing
    so;
  * `Run.Scoped`: a program of guard scopes and unlocked sections from its beginning on;
  * `Run.Balances`, `Run.scopes_balance`: every scope and every section leaves the mutexes of its
    thread as they were, and none of them ends the process.

The induction is on the moves since the program began, and what it carries are the calls above that
beginning. Nobody but the thread itself changes what the thread has, so the moves of others need
only leave its calls alone.
-/

namespace Interlock

/-! ## What a call says about its mutex

A thread can have a mutex locked by a scope, unlocked by a section inside it, locked again by a
scope inside that, and so on. The innermost call on the mutex decides (`heldIn`), and the stance of
a call is `none` as long as it has not decided yet: a scope that is still locking leaves the
question to the calls around it. -/

/-- Whether a thread that locks a mutex has taken the platform lock. -/
def LockPhase.isTaken : LockPhase → Bool
  | claim _ => true
  | _ => false

def ScopePhase.stance : ScopePhase → Option Bool
  | locking p => if p.isTaken then some true else none
  | body | unlocking _ _ => some true

def UnlockedPhase.stance : UnlockedPhase → Option Bool
  | unlocking _ => none
  | body => some false
  | relocking p _ => some p.isTaken

/-- Whether the thread has mutex `l`, if the call decides about that. -/
def Call.stance (l : LockRef) : Call → Option Bool
  | scope k p => if k = l then p.stance else none
  | unlocked k p => if k = l then p.stance else none
  | _ => none

/-- Whether a thread in these calls, innermost first, has mutex `l`. -/
def heldIn (l : LockRef) : List Call → Bool
  | [] => false
  | call :: outer => (call.stance l).getD (heldIn l outer)

/-- What a step that treats the platform lock like this makes of a stance. -/
def LockDeed.turn (x : Option Bool) : LockDeed → Option Bool
  | keep => x
  | take => some true
  | release => some false

/-- Whether the thread has the mutex after such a step. -/
def LockDeed.leaves (x : Bool) : LockDeed → Bool
  | keep => x
  | take => true
  | release => false

section

variable {t : Tid} {l : LockRef} {s : Store}

/-- While locking, the platform lock is taken once, and then written down. -/
theorem LockPhase.step_taken (p : LockPhase) :
    (p.step t l s).Meets
      (fun _ p' => p'.isTaken = true ∧ p.deed = .take ∨
        p'.isTaken = p.isTaken ∧ p.deed = .keep)
      (fun _ _ => p.isTaken = true ∧ p.deed = .keep)
      fun _ => p.isTaken = false ∧ p.deed = .keep := by
  cases p <;> simp only [step, Store.violate, Store.withLock] <;> (repeat' split) <;>
    simp [Progress.Meets, isTaken, deed]

/-- No step fails that is to end a guard scope. -/
def ScopePhase.Safe (t : Tid) (l : LockRef) (s : Store) (p : ScopePhase) : Prop :=
  ∀ q pending s' why, p = unlocking q pending → q.step t l s ≠ .fault s' why

/-- No step fails that is to begin or to end an unlocked section. -/
def UnlockedPhase.Safe (t : Tid) (l : LockRef) (s : Store) (p : UnlockedPhase) : Prop :=
  (∀ q s' why, p = unlocking q → q.step t l s ≠ .fault s' why) ∧
    ∀ q pending s' why, p = relocking q pending → q.step t l s ≠ .fault s' why

/-- An unlock that does not fail releases the platform lock with its last step. -/
theorem UnlockPhase.step_safe (p : UnlockPhase) (hsafe : ∀ s' why, p.step t l s ≠ .fault s' why) :
    (p.step t l s).Meets (fun _ _ => p.deed = .keep) (fun _ _ => p.deed = .release)
      fun _ => False := by
  have hdeed := p.step_deed (t := t) (l := l) (s := s)
  cases hp : p.step t l s <;> rw [hp] at hdeed
  case fault s' why => exact hsafe s' why hp
  case abort s' => exact p.step_survives s' hp
  all_goals exact hdeed

/-- A lock that does not fail ends with the platform lock taken. -/
theorem LockPhase.step_safe (p : LockPhase) (hsafe : ∀ s' why, p.step t l s ≠ .fault s' why) :
    (p.step t l s).Meets
      (fun _ p' => some p'.isTaken = p.deed.turn (some p.isTaken))
      (fun _ _ => p.isTaken = true ∧ p.deed = .keep) fun _ => False := by
  have htaken := p.step_taken (t := t) (l := l) (s := s)
  cases hp : p.step t l s <;> rw [hp] at htaken
  case next s' p' =>
    rcases htaken with ⟨htaken, hdeed⟩ | ⟨hsame, hdeed⟩
    · simp [Progress.Meets, htaken, hdeed, LockDeed.turn]
    · simp [Progress.Meets, hsame, hdeed, LockDeed.turn]
  case fault s' why => exact hsafe s' why hp
  case abort s' => exact p.step_survives s' hp
  all_goals exact htaken

/-- A guard scope ends with the release of its mutex, or without having taken it. -/
theorem ScopePhase.step_stance (p : ScopePhase) (hsafe : p.Safe t l s) :
    (p.step t l s).Meets (fun _ p' => p'.stance = (p.part.deed l s).turn p.stance)
      (fun _ _ => p.stance = some true ∧ p.part.deed l s = .release ∨
        p.stance = none ∧ p.part.deed l s = .keep)
      fun _ => p.stance = some true ∧ p.part.deed l s = .release ∨
        p.stance = none ∧ p.part.deed l s = .keep := by
  cases p with
  | locking q =>
    refine q.step_taken.within ?_ ?_ ?_
    · rintro s' q' (⟨htaken, hdeed⟩ | ⟨hsame, hdeed⟩)
      · simp [stance, part, LockPart.deed, htaken, hdeed, LockDeed.turn]
      · simp [stance, part, LockPart.deed, hsame, hdeed, LockDeed.turn]
    · rintro s' reply ⟨htaken, hdeed⟩
      simp [Progress.Meets, stance, part, LockPart.deed, htaken, hdeed, LockDeed.turn]
    · rintro s' ⟨htaken, hdeed⟩
      exact .inr ⟨by simp [stance, htaken], hdeed⟩
  | body => trivial
  | unlocking q pending =>
    -- unlocking does not fail where the scope is safe
    have hq := q.step_safe fun s' why => hsafe q pending s' why rfl
    refine (hq.whileUnwinding pending).within ?_ ?_ fun _ => False.elim
    · intro s' q' hdeed
      simp [stance, part, LockPart.deed, hdeed, LockDeed.turn]
    · intro s' reply hdeed
      exact .passOn (.inl ⟨rfl, hdeed⟩) (.inl ⟨rfl, hdeed⟩) pending

/-- An unlocked section ends once it has taken its mutex again. -/
theorem UnlockedPhase.step_stance (p : UnlockedPhase) (hsafe : p.Safe t l s) :
    (p.step t l s).Meets (fun _ p' => p'.stance = (p.part.deed l s).turn p.stance)
      (fun _ _ => p.stance = some true ∧ p.part.deed l s = .keep)
      fun _ => p.stance = some true ∧ p.part.deed l s = .keep := by
  cases p with
  | unlocking q =>
    have hq := q.step_safe fun s' why => hsafe.1 q s' why rfl
    refine hq.within ?_ ?_ fun _ => False.elim
    · intro s' q' hdeed
      simp [stance, part, LockPart.deed, hdeed, LockDeed.turn]
    · intro s' reply hdeed
      simp [Progress.Meets, stance, part, LockPart.deed, hdeed, LockDeed.turn]
  | body => trivial
  | relocking q pending =>
    have hq := q.step_safe fun s' why => hsafe.2 q pending s' why rfl
    refine (hq.whileUnwinding pending).within ?_ ?_ fun _ => False.elim
    · intro s' q' hturn
      exact hturn
    · rintro s' reply ⟨htaken, hdeed⟩
      have hended : some q.isTaken = some true ∧ q.deed = .keep := ⟨congrArg some htaken, hdeed⟩
      exact .passOn hended hended pending

end

theorem Progress.ends_of_lift {φ ρ : Type} {p : Progress φ ρ} {wrap : φ → Call} {reply : ρ → Reply}
    {s' : Store} (h : (Call.lift wrap reply p).Ends s') : p.Ends s' := by
  cases p <;> exact h

/-! ## Calls that nest

What the types of guards enforce is that a section is opened only on a guard that is there:
`Guarded` is the guard, `Balanced` what this makes of a whole stack. -/

/-- Guard scopes and unlocked sections, innermost first, each as it may stand in the ones around
it. -/
inductive Balanced : List Call → Prop
  | nil : Balanced []
  /-- A scope that has taken its mutex did not find it taken. -/
  | scope {l : LockRef} {p : ScopePhase} {outer : List Call} (h : Balanced outer)
    (hnew : p.stance = some true → heldIn l outer = false) : Balanced (.scope l p :: outer)
  | unlocked {l : LockRef} {p : UnlockedPhase} {outer : List Call} (h : Balanced outer)
    (hheld : heldIn l outer = true) : Balanced (.unlocked l p :: outer)

/-- The innermost scope or section on a mutex is a scope, so its guard can be used. -/
inductive Guarded (l : LockRef) : List Call → Prop
  | guard {outer : List Call} : Guarded l (.scope l .body :: outer)
  | scope {k : LockRef} {p : ScopePhase} {outer : List Call} (hk : k ≠ l) (h : Guarded l outer) :
    Guarded l (.scope k p :: outer)
  | unlocked {k : LockRef} {p : UnlockedPhase} {outer : List Call} (hk : k ≠ l)
    (h : Guarded l outer) : Guarded l (.unlocked k p :: outer)

section

variable {l : LockRef} {call : Call} {calls outer : List Call}

/-- A thread that can use a guard has the mutex. -/
theorem Guarded.held (h : Guarded l calls) : heldIn l calls = true := by
  induction h with
  | guard => simp [heldIn, Call.stance, ScopePhase.stance]
  | scope hk _ ih => simpa [heldIn, Call.stance, hk] using ih
  | unlocked hk _ ih => simpa [heldIn, Call.stance, hk] using ih

/-- A mutex that a thread has while all its calls run code of the client's is one whose guard it can
use. -/
theorem Guarded.of_held (hbalanced : Balanced calls) (hbody : ∀ call ∈ calls, call.atBody = true)
    (h : heldIn l calls = true) : Guarded l calls := by
  induction hbalanced with
  | nil => cases h
  | @scope k p outer hbalanced _ ih =>
    have hp : (Call.scope k p).atBody = true := hbody _ List.mem_cons_self
    obtain rfl : p = .body := by cases p <;> first | rfl | cases hp
    by_cases hk : k = l
    · subst hk
      exact .guard
    · refine .scope hk (ih (fun call hcall => hbody call (List.mem_cons_of_mem _ hcall)) ?_)
      simpa [heldIn, Call.stance, hk] using h
  | @unlocked k p outer hbalanced _ ih =>
    have hp : (Call.unlocked k p).atBody = true := hbody _ List.mem_cons_self
    obtain rfl : p = .body := by cases p <;> first | rfl | cases hp
    by_cases hk : k = l
    · subst hk
      simp [heldIn, Call.stance, UnlockedPhase.stance] at h
    · refine .unlocked hk (ih (fun call hcall => hbody call (List.mem_cons_of_mem _ hcall)) ?_)
      simpa [heldIn, Call.stance, hk] using h

/-- A mutex that a thread has is worked on by one of the calls. -/
theorem exists_of_heldIn (h : heldIn l calls = true) :
    ∃ call ∈ calls, ∀ s, .mutex l ∈ call.objects s := by
  -- the innermost call with a stance on `l` decides, and it has `l` among its objects
  induction calls with
  | nil => cases h
  | cons call outer ih =>
    cases hstance : call.stance l with
    | none =>
      rw [heldIn, hstance] at h
      obtain ⟨call', hcall', hmem⟩ := ih h
      exact ⟨call', List.mem_cons_of_mem _ hcall', hmem⟩
    | some x =>
      refine ⟨call, List.mem_cons_self, fun s => ?_⟩
      cases call with
      | scope k p =>
        simp only [Call.stance] at hstance
        split at hstance
        · simp [Call.objects, ‹k = l›]
        · cases hstance
      | unlocked k p =>
        simp only [Call.stance] at hstance
        split at hstance
        · simp [Call.objects, ‹k = l›]
        · cases hstance
      | _ => cases hstance

/-- What a step makes of the calls of its thread, by what it makes of the innermost one. -/
theorem heldIn_turn {call' : Call} {d : LockDeed} (h : call'.stance l = d.turn (call.stance l)) :
    heldIn l (call' :: outer) = d.leaves (heldIn l (call :: outer)) := by
  cases d <;> simp [heldIn, h, LockDeed.turn, LockDeed.leaves]

end

namespace Run

variable {r : Run} {t : Tid} {a n : Nat} {l : LockRef} {choice : Choice}
  {above above' outer : List Call}

/-! ## Keeping the balance

`Run.Poised` is the invariant: the calls above those that the program began with tell which mutexes
its thread has. It is an induction over the run, with a case for each thing that can happen to the
calls of one thread (`Machine.Stacked`). The cases that carry an argument are the steps of a scope
and of a section: they are *safe*, since the grip of their thread makes every check of theirs come
out well, and so their stance turns as the platform lock does. -/

/-- Whether a thread has a mutex does not change while others move. -/
theorem Idle.has_iff (h : r.Idle t n)
    (hstays : r.Has l t n → (r.state (n + 1)).store.lock l ≠ none) :
    r.Has l t (n + 1) ↔ r.Has l t n :=
  ⟨fun hhas => Classical.byContradiction fun hnot => not_has_succ hnot h.not_takes hhas,
    fun hhas => hhas.succ (hstays hhas) h.not_releases⟩

theorem has_congr (hstore : (r.state (n + 1)).store = (r.state n).store) :
    r.Has l t (n + 1) ↔ r.Has l t n := by
  rw [← holder_iff_has, ← holder_iff_has, hstore]

/-- In move `n`, thread `t` begins no call but a guard scope or an unlocked section of a guard that
it can use, and ends no body but that of one of them. It is in these calls meanwhile. -/
structure Nests (r : Run) (t : Tid) (n : Nat) (above : List Call) : Prop where
  begins : ∀ call, r.move n = .begin t call →
    (∃ l, call = .guarding l) ∨ ∃ l, call = .unguarding l ∧ Guarded l above
  bodies : ∀ e, r.move n = .endBody t e → above ≠ []

/-- Thread `t` has run guard scopes and unlocked sections only since move `a`. It is in these before
move `n`, above the calls that it was in then, and has the mutexes that they tell. -/
structure Poised (r : Run) (t : Tid) (a n : Nat) (above : List Call) : Prop where
  calls : (r.state n).calls.get t = above ++ (r.state a).calls.get t
  balanced : Balanced above
  has : ∀ l, r.Has l t n ↔ heldIn l above = true

namespace Poised

/-- A mutex that the thread has stays initialized, since one of its calls works on it. -/
theorem lock_stays (h : r.Poised t a n above) (hhas : r.Has l t n) :
    (r.state (n + 1)).store.lock l ≠ none := by
  obtain ⟨call, hcall, hmem⟩ := exists_of_heldIn ((h.has l).1 hhas)
  refine lock_stays_of_mem (h.calls ▸ List.mem_append_left _ hcall) (hmem _) hhas.initialized

/-- A scope's end finds its mutex in its thread's hands. -/
theorem scope_safe {p : ScopePhase} (h : r.Poised t a n (.scope l p :: outer)) :
    p.Safe t l (r.state n).store := by
  rintro q pending s' why rfl hfault
  have hhas : r.Has l t n :=
    (h.has l).2 (by simp [heldIn, Call.stance, ScopePhase.stance])
  obtain ⟨me, k, rfl, hk, hne⟩ := q.of_fault hhas.initialized hfault
  have hcheck : ((r.state n).part l t).check? = some me := by
    rw [Machine.part, Machine.see_of_get h.calls]
    simp [Call.part, ScopePhase.part, LockPart.check?]
  exact hne ((check_iff hk hcheck).2.2.2 hhas)

/-- A section begins with its mutex in its thread's hands, and ends with it out of them. -/
theorem unlocked_safe {p : UnlockedPhase} (h : r.Poised t a n (.unlocked l p :: outer)) :
    p.Safe t l (r.state n).store := by
  have hget := h.calls
  have hpart : (r.state n).part l t = p.part := by
    rw [Machine.part, Machine.see_of_get hget]
    exact if_pos rfl
  constructor
  · rintro q s' why rfl hfault
    have hhas : r.Has l t n := by
      cases h.balanced with
      | unlocked _ hheld => exact (h.has l).2 (by simpa [heldIn, Call.stance, UnlockedPhase.stance])
    obtain ⟨me, k, rfl, hk, hne⟩ := q.of_fault hhas.initialized hfault
    exact hne ((check_iff hk (by rw [hpart]; rfl)).2.2.2 hhas)
  · rintro q pending s' why rfl hfault
    have hmem : Call.unlocked l (.relocking q pending) ∈ (r.state n).calls.get t := by
      rw [hget]
      exact List.mem_cons_self
    have hinit : (r.state n).store.lock l ≠ none :=
      lock_of_within r n hmem (by simp [Call.isWithin])
    obtain ⟨me, k, rfl, hk, howner⟩ := q.of_fault hinit hfault
    have hhas := (h.has l).1 ((check_iff hk (by rw [hpart]; rfl)).2.2.1 howner)
    simp [heldIn, Call.stance, UnlockedPhase.stance, LockPhase.isTaken] at hhas

/-- What a move makes of the calls and of what their thread has. -/
theorem has_step (h : r.Poised t a n above) (hmove : r.move n = .advance t choice)
    (hmoves : ((r.state n).advance t choice).2 ≠ .blocked)
    (hheld : heldIn l above' = ((r.state n).deed l t).leaves (heldIn l above)) :
    r.Has l t (n + 1) ↔ heldIn l above' = true := by
  rw [hheld]
  cases hdeed : (r.state n).deed l t with
  | keep =>
    refine Iff.trans ⟨?_, fun hhas => hhas.succ (h.lock_stays hhas) ?_⟩ (h.has l)
    · refine fun hhas => Classical.byContradiction fun hnot => not_has_succ hnot ?_ hhas
      rintro ⟨_, -, -, htakes⟩
      cases hdeed.symm.trans htakes
    · rintro ⟨_, -, -, hreleases⟩
      cases hdeed.symm.trans hreleases
  | take =>
    have htakes : r.Takes l t n := ⟨choice, hmove, hmoves, hdeed⟩
    exact iff_of_true (holder_iff_has.1 htakes.does.2) rfl
  | release =>
    have hreleases : r.Releases l t n := ⟨choice, hmove, hmoves, hdeed⟩
    refine iff_of_false ?_ (by simp [LockDeed.leaves])
    rw [← holder_iff_has, hreleases.does.2]
    exact fun h => by cases h

/-- What the thread does with a mutex now is what its innermost scope does. -/
theorem deed_scope {k : LockRef} {p : ScopePhase} (h : r.Poised t a n (.scope k p :: outer)) :
    (r.state n).deed l t = if k = l then p.part.deed k (r.state n).store else .keep := by
  rw [Machine.deed, Machine.part, Machine.see_of_get h.calls, Call.part]
  split
  · rw [‹k = l›]
  · rfl

/-- Or what its innermost section does. -/
theorem deed_unlocked {k : LockRef} {p : UnlockedPhase}
    (h : r.Poised t a n (.unlocked k p :: outer)) :
    (r.state n).deed l t = if k = l then p.part.deed k (r.state n).store else .keep := by
  rw [Machine.deed, Machine.part, Machine.see_of_get h.calls, Call.part]
  split
  · rw [‹k = l›]
  · rfl

/-- The innermost call of the thread is one of its own, unless it runs none above those that it was
in at first. -/
theorem exists_of_get {call : Call} {rest : List Call} (h : r.Poised t a n above)
    (hget : (r.state n).calls.get t = call :: rest) :
    above = [] ∧ (r.state a).calls.get t = call :: rest ∨
      ∃ outer, above = call :: outer ∧ rest = outer ++ (r.state a).calls.get t := by
  have hcalls := h.calls.symm.trans hget
  rcases List.append_eq_cons_iff.1 hcalls with ⟨hnil, hbase⟩ | ⟨outer, habove, hrest⟩
  · exact .inl ⟨hnil, hbase⟩
  · exact .inr ⟨outer, habove, hrest⟩

/-- A scope goes on. -/
theorem next_scope {k : LockRef} {p p' : ScopePhase} {s' : Store}
    (h : r.Poised t a n (.scope k p :: outer)) (hmove : r.move n = .advance t choice)
    (hmoves : ((r.state n).advance t choice).2 ≠ .blocked)
    (hstep : p.step t k (r.state n).store = .next s' p')
    (hcalls : (r.state (n + 1)).calls.get t = .scope k p' :: (outer ++ (r.state a).calls.get t)) :
    r.Poised t a (n + 1) (.scope k p' :: outer) := by
  have hstance : (p.step t k (r.state n).store).Meets _ _ _ := p.step_stance h.scope_safe
  rw [hstep] at hstance
  refine ⟨hcalls, ?_, fun l => h.has_step hmove hmoves (heldIn_turn ?_)⟩
  · cases h.balanced with
    | scope hbalanced hnew =>
      refine .scope hbalanced fun htaken => ?_
      have hdeed := (h.deed_scope (l := k)).trans (if_pos rfl)
      cases hd : p.part.deed k (r.state n).store <;> rw [hd] at hstance hdeed
      case keep => exact hnew (hstance.symm.trans htaken)
      case release => cases hstance.symm.trans htaken
      case take =>
        -- nobody has a mutex that is about to be taken
        have htakes : r.Takes k t n := ⟨choice, hmove, hmoves, hdeed⟩
        have hnot : ¬ heldIn k (.scope k p :: outer) = true := by
          rw [← h.has k, ← holder_iff_has, htakes.does.1]
          simp
        cases hp : p.stance with
        | none => simpa [heldIn, Call.stance, hp] using hnot
        | some x =>
          obtain rfl : x = true := by
            cases p <;> simp only [ScopePhase.stance] at hp <;> (repeat' split at hp) <;>
              cases hp <;> rfl
          exact hnew hp
  · rw [h.deed_scope]
    simp only [Call.stance]
    split
    · exact hstance
    · rfl

/-- A section goes on. -/
theorem next_unlocked {k : LockRef} {p p' : UnlockedPhase} {s' : Store}
    (h : r.Poised t a n (.unlocked k p :: outer)) (hmove : r.move n = .advance t choice)
    (hmoves : ((r.state n).advance t choice).2 ≠ .blocked)
    (hstep : p.step t k (r.state n).store = .next s' p')
    (hcalls : (r.state (n + 1)).calls.get t =
      .unlocked k p' :: (outer ++ (r.state a).calls.get t)) :
    r.Poised t a (n + 1) (.unlocked k p' :: outer) := by
  have hstance : (p.step t k (r.state n).store).Meets _ _ _ := p.step_stance h.unlocked_safe
  rw [hstep] at hstance
  refine ⟨hcalls, ?_, fun l => h.has_step hmove hmoves (heldIn_turn ?_)⟩
  · cases h.balanced with
    | unlocked hbalanced hheld => exact .unlocked hbalanced hheld
  · rw [h.deed_unlocked]
    simp only [Call.stance]
    split
    · exact hstance
    · rfl

/-- A scope ends, and its mutex is released or was never taken. -/
theorem last_scope {k : LockRef} {p : ScopePhase} {s' : Store}
    (h : r.Poised t a n (.scope k p :: outer)) (hmove : r.move n = .advance t choice)
    (hmoves : ((r.state n).advance t choice).2 ≠ .blocked)
    (hends : (p.step t k (r.state n).store).Ends s')
    (hcalls : (r.state (n + 1)).calls.get t = outer ++ (r.state a).calls.get t) :
    r.Poised t a (n + 1) outer := by
  have hstance := (p.step_stance h.scope_safe).of_ends hends
  cases h.balanced with
  | scope hbalanced hnew =>
    refine ⟨hcalls, hbalanced, fun l => h.has_step hmove hmoves ?_⟩
    rw [h.deed_scope]
    by_cases hl : k = l
    · subst hl
      rcases hstance with ⟨hx, hd⟩ | ⟨hx, hd⟩
      · simp [hd, LockDeed.leaves, hnew hx]
      · simp [hd, LockDeed.leaves, heldIn, Call.stance, hx]
    · simp [hl, LockDeed.leaves, heldIn, Call.stance]

/-- A section ends, and its mutex is taken. -/
theorem last_unlocked {k : LockRef} {p : UnlockedPhase} {s' : Store}
    (h : r.Poised t a n (.unlocked k p :: outer)) (hmove : r.move n = .advance t choice)
    (hmoves : ((r.state n).advance t choice).2 ≠ .blocked)
    (hends : (p.step t k (r.state n).store).Ends s')
    (hcalls : (r.state (n + 1)).calls.get t = outer ++ (r.state a).calls.get t) :
    r.Poised t a (n + 1) outer := by
  have hstance := (p.step_stance h.unlocked_safe).of_ends hends
  cases h.balanced with
  | unlocked hbalanced hheld =>
    refine ⟨hcalls, hbalanced, fun l => h.has_step hmove hmoves ?_⟩
    rw [h.deed_unlocked]
    by_cases hl : k = l
    · subst hl
      simp [hstance.2, LockDeed.leaves, heldIn, Call.stance, hstance.1, hheld]
    · simp [hl, LockDeed.leaves, heldIn, Call.stance]

/-- The calls that the thread was in at first go on running code of the client's. -/
theorem step_of_nil {call : Call} {rest : List Call} (hclient : (r.state a).inClient t = true)
    (hget : (r.state a).calls.get t = call :: rest) (s : Store) :
    call.step t choice s = .blocked := by
  simp only [Machine.inClient, Bool.and_eq_true] at hclient
  exact Call.step_of_body (by simpa [Machine.call?_of_get hget] using hclient.2)

/-- What is so stays so, whatever the others do. -/
theorem step (h : r.Poised t a n above) (hclient : (r.state a).inClient t = true) (han : a ≤ n)
    (hnests : r.Nests t n above) : ∃ above', r.Poised t a (n + 1) above' := by
  cases r.stacked n t with
  | same hcalls hidle =>
    exact ⟨above, hcalls.trans h.calls, h.balanced,
      fun l => (Idle.has_iff hidle h.lock_stays).trans (h.has l)⟩
  | @begun call hmove _ _ hcalls hstore =>
    rw [h.calls] at hcalls
    rcases hnests.begins call hmove with ⟨l, rfl⟩ | ⟨l, rfl, hguarded⟩
    · refine ⟨.guarding l :: above, hcalls, .scope h.balanced (by rintro ⟨⟩), fun k => ?_⟩
      rw [has_congr hstore, h.has k]
      simp [heldIn, Call.stance, Call.guarding, ScopePhase.stance, LockPhase.isTaken]
    · refine ⟨.unguarding l :: above, hcalls, .unlocked h.balanced hguarded.held, fun k => ?_⟩
      rw [has_congr hstore, h.has k]
      simp [heldIn, Call.stance, Call.unguarding, UnlockedPhase.stance]
  | @resumed e call rest hmove hget hbody hcalls hstore =>
    rcases h.exists_of_get hget with ⟨hnil, -⟩ | ⟨outer, rfl, rfl⟩
    · exact absurd hnil (hnests.bodies e hmove)
    · refine ⟨call.resume e :: outer, hcalls, ?_, fun k => ?_⟩
      · cases h.balanced with
        | scope hbalanced hnew =>
          rename_i l p
          cases p <;> cases hbody
          exact .scope hbalanced hnew
        | unlocked hbalanced hheld => exact .unlocked hbalanced hheld
      · rw [has_congr hstore, h.has k]
        cases h.balanced with
        | @scope l p =>
          cases p <;> cases hbody
          rfl
        | @unlocked l p =>
          cases p <;> cases hbody
          rfl
  | @next choice call call' rest hmove hget hstep hcalls =>
    have hmoves : ((r.state n).advance t choice).2 ≠ .blocked := by
      rw [ne_eq, Machine.advance_blocked hget, hstep]
      simp
    rcases h.exists_of_get hget with ⟨-, hbelow⟩ | ⟨outer, rfl, rfl⟩
    · rw [step_of_nil hclient hbelow] at hstep
      cases hstep
    · cases h.balanced with
      | scope =>
        obtain ⟨p', hp, rfl⟩ := Progress.next_of_lift hstep
        exact ⟨_, h.next_scope hmove hmoves hp hcalls⟩
      | unlocked =>
        obtain ⟨p', hp, rfl⟩ := Progress.next_of_lift hstep
        exact ⟨_, h.next_unlocked hmove hmoves hp hcalls⟩
  | @last choice call rest hmove hget hends hcalls =>
    have hmoves : ((r.state n).advance t choice).2 ≠ .blocked := by
      rw [ne_eq, Machine.advance_blocked hget]
      intro hblocked
      rw [hblocked] at hends
      exact hends
    rcases h.exists_of_get hget with ⟨-, hbelow⟩ | ⟨outer, rfl, rfl⟩
    · rw [step_of_nil hclient hbelow] at hends
      cases hends
    · cases h.balanced with
      | scope => exact ⟨outer, h.last_scope hmove hmoves (Progress.ends_of_lift hends) hcalls⟩
      | unlocked => exact ⟨outer, h.last_unlocked hmove hmoves (Progress.ends_of_lift hends) hcalls⟩
  | born hthread =>
    simp only [Machine.inClient, Machine.lives, Bool.and_eq_true, decide_eq_true_eq] at hclient
    exact absurd hthread (Nat.ne_of_lt (Nat.lt_of_lt_of_le hclient.1.1 (r.nextThread_mono han)))

end Poised

/-! ## Programs of scopes and sections

A panic leaves the scopes it passes through in the order in which they were entered, and the client
may catch it around any of them; to the machine that is one call after the other that ends. So a
program is any sequence of moves that begins scopes and sections and ends their bodies, and nothing
is assumed about its shape. -/

/-- Since move `a` thread `t` has run a program of guard scopes and unlocked sections. After a panic
it has gone on anywhere around the call that has panicked. It is in these calls of the program
before move `n`, innermost first. -/
inductive Scoped (r : Run) (t : Tid) (a : Nat) : Nat → List Call → Prop
  | starts : Scoped r t a a []
  | goes {n : Nat} {above above' : List Call} (h : Scoped r t a n above)
    (hnests : r.Nests t n above)
    (hcalls : (r.state (n + 1)).calls.get t = above' ++ (r.state a).calls.get t) :
    Scoped r t a (n + 1) above'

/-- The call that thread `t` begins in move `j` ends in move `n`, by a reply or by a panic. -/
structure Lasts (r : Run) (t : Tid) (j n : Nat) : Prop where
  begins : ∃ call, r.move j = .begin t call
  after : j < n
  within : ∀ k, j < k → k ≤ n → r.depth t j < r.depth t k
  ends : r.depth t (n + 1) = r.depth t j

variable {j : Nat} {call : Call}

/-- The calls below one that goes on stay as they are. -/
theorem suffix_succ (h : (r.state j).calls.get t <:+ (r.state n).calls.get t)
    (hdepth : r.depth t j < r.depth t n) :
    (r.state j).calls.get t <:+ (r.state (n + 1)).calls.get t := by
  have hbelow {call : Call} {outer : List Call} (hget : (r.state n).calls.get t = call :: outer) :
      (r.state j).calls.get t <:+ outer := by
    rw [hget] at h
    rcases List.suffix_cons_iff.1 h with heq | hsuffix
    · rw [depth, depth, hget, heq] at hdepth
      exact absurd hdepth (Nat.lt_irrefl _)
    · exact hsuffix
  cases r.stacked n t with
  | same hcalls => rwa [hcalls]
  | begun _ _ _ hcalls => exact hcalls ▸ h.trans (List.suffix_cons ..)
  | resumed _ hget _ hcalls => exact hcalls ▸ (hbelow hget).trans (List.suffix_cons ..)
  | next _ hget _ hcalls => exact hcalls ▸ (hbelow hget).trans (List.suffix_cons ..)
  | last _ hget _ hcalls => exact hcalls ▸ hbelow hget
  | born _ hnew =>
    rw [depth, depth, hnew] at hdepth
    exact absurd hdepth (Nat.not_lt_zero _)

/-- When a call has ended its thread is in the calls that it was in before. -/
theorem Lasts.calls (h : r.Lasts t j n) :
    (r.state (n + 1)).calls.get t = (r.state j).calls.get t := by
  obtain ⟨⟨call, hmove⟩, hjn, hwithin, hends⟩ := h
  have hsuffix : ∀ k, j < k → k ≤ n + 1 →
      (r.state j).calls.get t <:+ (r.state k).calls.get t := by
    intro k hjk
    induction hjk with
    | refl =>
      intro _
      have hcalls : (r.state (j + 1)).calls.get t = call :: (r.state j).calls.get t := by
        rw [state_succ, hmove]
        exact Table.get_set_self ..
      exact hcalls ▸ List.suffix_cons ..
    | @step k hjk ih =>
      intro hkn
      exact suffix_succ (ih (Nat.le_of_succ_le hkn)) (hwithin k hjk (Nat.le_of_succ_le_succ hkn))
  exact ((hsuffix (n + 1) (Nat.lt_succ_of_lt hjn) (Nat.le_refl _)).eq_of_length hends.symm).symm

namespace Scoped

theorem le (h : r.Scoped t a n above) : a ≤ n := by
  induction h with
  | starts => exact Nat.le_refl a
  | goes _ _ _ ih => exact Nat.le_succ_of_le ih

/-- Throughout a program the calls of its thread tell what it has. -/
theorem poised (h : r.Scoped t a n above) (hclient : (r.state a).inClient t = true)
    (hnone : ∀ l, ¬ r.Has l t a) : r.Poised t a n above := by
  induction h with
  | starts => exact ⟨rfl, .nil, fun l => by simp [heldIn, hnone l]⟩
  | goes h hnests hcalls ih =>
    obtain ⟨above', hpoised⟩ := ih.step hclient h.le hnests
    cases List.append_cancel_right (hcalls.symm.trans hpoised.calls)
    exact hpoised

end Scoped

/-- No step of a program of scopes and sections ends the process. -/
theorem Poised.survives (h : r.Poised t a n above) (hclient : (r.state a).inClient t = true) :
    ¬ r.Aborts t n := by
  rintro ⟨choice, -, hnotice⟩
  obtain ⟨call, rest, s', hget, habort⟩ := Machine.exists_abort hnotice
  rcases h.exists_of_get hget with ⟨-, hbelow⟩ | ⟨outer, rfl, rfl⟩
  · rw [Poised.step_of_nil hclient hbelow] at habort
    cases habort
  -- both ways to end the process are in code that runs while a panic passes, and there the balance
  -- says whether the mutex is had
  · have hsplit {k l : LockRef} {part code : LockPart} (hne : code ≠ .aside)
        (hcode : (if k = l then part else .aside) = code) : k = l ∧ part = code := by
      split at hcode
      · exact ⟨‹_›, hcode⟩
      · exact absurd hcode.symm hne
    obtain ⟨l, why, v, ⟨q, hcode, hfault⟩ | ⟨q, hcode, hfault⟩⟩ := Call.of_abort habort
    · cases h.balanced with
      | @scope k p =>
        obtain ⟨rfl, hp⟩ := hsplit (by simp) hcode
        cases p <;> cases hp
        exact h.scope_safe q _ _ _ rfl hfault
      | @unlocked k p =>
        obtain ⟨rfl, hp⟩ := hsplit (by simp) hcode
        cases p <;> cases hp
    · cases h.balanced with
      | @scope k p =>
        obtain ⟨rfl, hp⟩ := hsplit (by simp) hcode
        cases p <;> cases hp
      | @unlocked k p =>
        obtain ⟨rfl, hp⟩ := hsplit (by simp) hcode
        cases p <;> cases hp
        exact h.unlocked_safe.2 q _ _ _ rfl hfault

/-- How the scopes and sections of a program that thread `t` runs since move `a` treat mutexes. -/
structure Balances (r : Run) (t : Tid) (a : Nat) : Prop where
  goes : ∀ n above, r.Scoped t a n above → r.Nests t n above → ∃ above', r.Scoped t a (n + 1) above'
  /-- While the program's own code runs, the thread has the mutexes whose guards it can use. -/
  has : ∀ n above l, r.Scoped t a n above → (∀ call ∈ above, call.atBody = true) →
    (r.Has l t n ↔ Guarded l above)
  /-- When a scope has ended, the thread does not have the mutex, unless the scope has not come to
  its body, and the guard of one around it can be used. -/
  drops : ∀ n l p outer, r.Scoped t a n (.scope l p :: outer) → r.Scoped t a (n + 1) outer →
    r.Has l t (n + 1) → (∃ q, p = .locking q) ∧ Guarded l outer
  /-- When a section has ended, the thread has the mutex again. -/
  rejoins : ∀ n l p outer, r.Scoped t a n (.unlocked l p :: outer) → r.Scoped t a (n + 1) outer →
    r.Has l t (n + 1)
  /-- Whatever has begun and ended leaves the thread's mutexes as they were. -/
  restores : ∀ j n above above', r.Scoped t a j above → r.Scoped t a (n + 1) above' →
    r.Lasts t j n → ∀ l, r.Has l t (n + 1) ↔ r.Has l t j
  /-- A scope on a mutex that the thread has panics before it has done anything. -/
  refuses : ∀ j above l, r.Scoped t a j above → r.move j = .begin t (.guarding l) → r.Has l t j →
    ∀ i notice, r.NextStep t (j + 1) i notice → r.Rejects t .relocked i
  survives : ∀ n above, r.Scoped t a n above → ¬ r.Aborts t n

/-- In every run, a thread that starts without mutexes and only nests guard scopes and unlocked
sections of its guards keeps them balanced, however these end. -/
theorem scopes_balance (hclient : (r.state a).inClient t = true) (hnone : ∀ l, ¬ r.Has l t a) :
    r.Balances t a := by
  have hpoised {n : Nat} {above : List Call} (h : r.Scoped t a n above) : r.Poised t a n above :=
    h.poised hclient hnone
  constructor
  case goes =>
    intro n above hscoped hnests
    obtain ⟨above', h⟩ := (hpoised hscoped).step hclient hscoped.le hnests
    exact ⟨above', hscoped.goes hnests h.calls⟩
  case has =>
    intro n above l h hbody
    have hn := hpoised h
    exact (hn.has l).trans ⟨.of_held hn.balanced hbody, Guarded.held⟩
  case drops =>
    intro n l p outer h h' hhas
    have hn := hpoised h
    have hheld := ((hpoised h').has l).1 hhas
    refine ⟨?_, .of_held (hpoised h').balanced (fun call hcall => ?_) hheld⟩
    · cases hn.balanced with
      | scope _ hnew => cases p <;> first | exact ⟨_, rfl⟩ | cases (hnew rfl).symm.trans hheld
    · exact (r.state_sound n).waiting t _ _ hn.calls call (List.mem_append_left _ hcall)
  case rejoins =>
    intro n l p outer h h'
    cases (hpoised h).balanced with
    | unlocked _ hheld => exact ((hpoised h').has l).2 hheld
  case restores =>
    intro j n above above' h h' hlasts l
    have hcalls := (hpoised h').calls.symm.trans (hlasts.calls.trans (hpoised h).calls)
    -- the same calls are above, so the same mutexes are had
    cases List.append_cancel_right hcalls
    exact ((hpoised h').has l).trans ((hpoised h).has l).symm
  case refuses =>
    intro j above l h hmove hhas i notice hnext
    have hstore : (r.state (j + 1)).store = (r.state j).store := by
      rw [state_succ, hmove]
      rfl
    have hpart : (r.state (j + 1)).part l t = .locking .entry none := by
      have hget : (r.state (j + 1)).calls.get t = .guarding l :: (r.state j).calls.get t := by
        rw [state_succ, hmove]
        exact Table.get_set_self ..
      rw [Machine.part, Machine.see_of_get hget]
      exact if_pos rfl
    have hat : r.At l t (.locking .entry none) True (j + 1) :=
      ⟨hpart, by rw [hstore]; exact hhas.initialized, iff_true_intro ((has_congr hstore).2 hhas)⟩
    obtain ⟨choice, hmove', -⟩ := hnext.step
    exact (hat.until (by simp) hnext).relock_rejected hmove'
  case survives => exact fun n above h => (hpoised h).survives hclient

/-- In a scope, thread 0 leaves an unlocked section by a panic, which it catches. Then it tries to
lock the mutex of the scope once more, catches that panic too, and leaves the scope. -/
def nested : Run :=
  ofList
    (.create (.mutex true) :: .begin 0 (.guarding 0) :: steps 0 4 ++
      .begin 0 (.unguarding 0) :: steps 0 4 ++ .endBody 0 (.panicked (.client "lost")) ::
      steps 0 4 ++ .begin 0 (.guarding 0) :: steps 0 2 ++ .endBody 0 (.returned .yes) :: steps 0 4)
    (by decide +kernel)

/-- It has the mutex after either panic, and not at the end. -/
theorem scopes_balance_nested :
    (nested.state 0).inClient 0 = true ∧ (∀ l, ¬ nested.Has l 0 0) ∧ nested.Balances 0 0 ∧
      ((nested.state 15).advance 0 ⟨0, false⟩).2 = .panicked (.client "lost") ∧
      nested.Has 0 0 16 ∧
      ((nested.state 18).advance 0 ⟨0, false⟩).2 = .panicked (.violation (.relocked ⟨1⟩)) ∧
      nested.Has 0 0 19 ∧ ¬ nested.Has 0 0 24 := by
  have hclient : (nested.state 0).inClient 0 = true := by decide +kernel
  have hnone : ∀ l, ¬ nested.Has l 0 0 := by
    rintro l ⟨j, hsince⟩
    exact absurd hsince.before (Nat.not_lt_zero j)
  have hfree : (nested.state 24).store.holder 0 = none := by decide +kernel
  refine ⟨hclient, hnone, scopes_balance hclient hnone, by decide +kernel,
    holder_iff_has.1 (by decide +kernel), by decide +kernel, holder_iff_has.1 (by decide +kernel),
    ?_⟩
  intro hhas
  cases hfree.symm.trans (holder_iff_has.2 hhas)

end Run

end Interlock
