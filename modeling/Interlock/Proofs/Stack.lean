import Interlock.Proofs.Run
import Interlock.Proofs.Outcome

/-!
# The calls in progress

Of the calls of a thread only the innermost one moves: each of the others runs its client's code
(`Machine.Sound`). So a move of the machine is one of a few things (`Machine.Change`): a client
changes the store, a thread turns to another call, a call goes on, or a call ends; and a view of
the machine that looks at innermost calls is followed from one state to the next by looking at
these.

A call is `Calm` when its thread has just come to it or come back to it: it has been begun, or it
runs its client's code, or that code has just ended. Nothing has been taken, published or read by
a calm call that its thread would have to give back.

The invariants of other modules are views in this sense. They are carried over a move by
`Machine.Change.sight`, or by a relative of it, and do not repeat the case analysis of moves.
-/

namespace Interlock

/-! ## Calm calls

An invariant of calls in progress usually says that a call in some phase has something: a mutex
taken, an identity read, a place among the sleepers. Of a calm call it says nothing, so the moves
that make a call calm (a beginning, the end of a body) need no look at the invariant at all. -/

/-- A call at its beginning, in its body, or just after its body. -/
inductive Call.Calm : Call → Prop
  | fresh {call : Call} (h : call.isFresh = true) : Calm call
  | body {call : Call} (h : call.atBody = true) : Calm call
  | resumed {call : Call} (e : BodyEnd) (h : call.atBody = true) : Calm (call.resume e)

theorem Call.objects_resume (s : Store) (call : Call) (e : BodyEnd) :
    (call.resume e).objects s = call.objects s := by
  cases call <;> rfl

theorem Call.handle_lt_of_knows {m : Machine} {call : Call} (h : m.knows call = true)
    {o : Object} (ho : o ∈ call.objects m.store) : o.handle < m.store.nextHandle := by
  simpa using List.all_eq_true.1 h o ho

/-- The operation that a call is in, from its beginning. -/
def Call.origin : Call → Call
  | lock l _ => locking l
  | unlock l _ => unlocking l
  | scope l _ => guarding l
  | unlocked l _ => unguarding l
  | wakeup c event _ => waking c event
  | wait c l timeout _ => waiting c l timeout
  | waitWhile c l timeout _ => waitingWhile c l timeout
  | once o _ => passing o
  | acquire r _ => acquiring r
  | release r _ => releasing r
  | setEvent e event _ => setting e event
  | listen e timeout _ => listening e timeout
  | start r _ => starting r
  | join r _ => joining r
  | call => call

/-- A call works on the same objects from its beginning to its end. -/
theorem Call.objects_origin (s : Store) (call : Call) : call.origin.objects s = call.objects s := by
  cases call <;> rfl

/-- So whether it leaves mutexes and condition variables alone is settled at its beginning. -/
theorem Call.isAside_origin (call : Call) : call.origin.isAside = call.isAside := by
  cases call <;> rfl

/-- A call goes on within its operation: no step turns a lock into a wait. -/
theorem Call.origin_of_step {t : Tid} {choice : Choice} {s s' : Store} {call call' : Call}
    (h : call.step t choice s = .next s' call') : call'.origin = call.origin := by
  -- a call of one step has no next phase to compare
  have single {ρ : Type} (reply : ρ → Reply) (p : Progress Call ρ) (hp : ∀ s k, p ≠ .next s k) :
      Call.single reply p ≠ .next s' call' := by
    cases p <;> simp_all [Call.single, Progress.within]
  cases call with
  | lock | unlock | scope | unlocked | wakeup | wait | waitWhile | once | acquire | release
  | setEvent | listen | start | join =>
    obtain ⟨phase, -, rfl⟩ := Progress.next_of_lift h
    rfl
  | currentId => simp [step] at h
  | setName name => simp [step] at h
  | initMutex l =>
    refine absurd h (single _ _ ?_)
    intro s k
    unfold initMutexStep
    split <;> simp [Store.violate]
  | initCond c backend =>
    refine absurd h (single _ _ ?_)
    intro s k
    unfold initCondStep
    split <;> simp [Store.violate]
  | tryAcquire r =>
    refine absurd h (single _ _ ?_)
    intro s k
    simp only [tryAcquireStep]
    split <;> simp
  | resetEvent e event =>
    refine absurd h (single _ _ ?_)
    intro s k
    simp [resetStep]
  | install id =>
    refine absurd h (single _ _ ?_)
    intro s k
    unfold installStep
    split <;> simp [Store.violate]
  | configure r setting =>
    refine absurd h (single _ _ ?_)
    intro s k
    simp [configureStep]
  | detach r =>
    refine absurd h (single _ _ ?_)
    intro s k
    simp only [detachStep, takeRunning]
    split <;> simp [Store.violate]
  | destroy object unwinding =>
    refine absurd h (single _ _ ?_)
    intro s k
    unfold destroyStep
    split <;> simp

/-- Only a start that has just spawned a thread has one to adopt, and that thread is new. -/
theorem Call.child_of_step {t : Tid} {choice : Choice} {s s' : Store} {call call' : Call}
    (h : call.step t choice s = .next s' call') {child : Tid} {id : ThreadId}
    (hchild : call'.child? = some (child, id)) :
    child = s.nextThread ∧ s'.nextThread = s.nextThread + 1 ∧ s'.ids = s.ids ∧
      ∃ r, call = .start r (.spawn id) ∧ call' = .start r (.record id child) := by
  have hkind := origin_of_step h
  cases call' with
  | start r phase =>
    cases phase with
    -- the phase that carries the new thread comes only from the one that spawns it
    | record id' child' =>
      simp only [child?, Option.some.injEq, Prod.mk.injEq] at hchild
      obtain ⟨rfl, rfl⟩ := hchild
      cases call <;> simp only [origin, starting, locking, unlocking, guarding, unguarding, waking,
        waiting, waitingWhile, passing, acquiring, releasing, setting, listening, joining,
        reduceCtorEq, start.injEq, and_true] at hkind
      subst hkind
      rename_i p
      cases p <;> simp only [step, lift, StartPhase.step] at h
      · split at h <;> simp [Progress.within, Store.violate] at h
      · split at h
        · simp [Progress.within] at h
        · split at h
          · simp [Progress.within] at h
          · simp only [Progress.within, Store.addOsThread, Progress.next.injEq, start.injEq,
              StartPhase.record.injEq] at h
            obtain ⟨rfl, -, rfl, rfl⟩ := h
            exact ⟨rfl, rfl, rfl, _, rfl, rfl⟩
      · simp [Progress.within] at h
    | _ => simp [child?] at hchild
  | _ => simp [child?] at hchild

/-! ## What clients do to the store

Clients change the store outside the library's code only by creating things, and what they create is
new: nothing that existed is written. `Grows` says this in the terms in which the invariants speak
of the store, so that each of them settles all creations with one lemma. -/

/-- What a client changes: it creates objects and threads. -/
structure Store.Grows (s s' : Store) : Prop where
  ids : s'.ids = s.ids
  nextHandle : s.nextHandle ≤ s'.nextHandle
  nextThread : s.nextThread ≤ s'.nextThread
  /-- A mutex is as it was, or new and free. -/
  locks : ∀ l : Nat, s'.lock l = s.lock l ∨
    s.nextHandle ≤ l ∧ l < s'.nextHandle ∧ (s'.lock l = none ∨ s'.lock l = some .free)
  /-- A condition variable is as it was, or new and without waiters. -/
  conds : ∀ c, s'.conds.get c = s.conds.get c ∨
    s.nextHandle ≤ c ∧ c < s'.nextHandle ∧
      (s'.conds.get c = .raw ∨ ∃ backend, s'.conds.get c = .new backend)
  onces : ∀ o < s.nextHandle, s'.onces.get o = s.onces.get o

namespace Store

variable {s s' s'' : Store}

theorem Grows.gates (h : s.Grows s') (o : Nat) (ho : o < s.nextHandle) :
    (s'.onces.get o).lock = (s.onces.get o).lock := by
  rw [h.onces o ho]

/-- Growth is checked table by table where no mutex, condition variable or gate is new. -/
theorem Grows.of_same (hids : s'.ids = s.ids := by rfl)
    (hhandle : s.nextHandle ≤ s'.nextHandle := by exact Nat.le_refl _)
    (hthread : s.nextThread ≤ s'.nextThread := by exact Nat.le_refl _)
    (hlocks : s'.locks = s.locks := by rfl) (hconds : s'.conds = s.conds := by rfl)
    (honces : s'.onces = s.onces := by rfl) : s.Grows s' :=
  ⟨hids, hhandle, hthread, fun l => .inl (by simp only [lock, hlocks]),
    fun c => .inl (by rw [hconds]), fun o _ => by rw [honces]⟩

/-- What grows twice grows: an object with parts is created part by part. -/
theorem Grows.trans (h : s.Grows s') (h' : s'.Grows s'') : s.Grows s'' where
  ids := h'.ids.trans h.ids
  nextHandle := Nat.le_trans h.nextHandle h'.nextHandle
  nextThread := Nat.le_trans h.nextThread h'.nextThread
  locks l := by
    have hhandle := h.nextHandle
    have hhandle' := h'.nextHandle
    rcases h'.locks l with hl | ⟨hle, hlt, hl⟩
    · rw [hl]
      exact (h.locks l).imp_right fun hnew => ⟨hnew.1, by omega, hnew.2.2⟩
    · exact .inr ⟨by omega, hlt, hl⟩
  conds c := by
    have hhandle := h.nextHandle
    have hhandle' := h'.nextHandle
    rcases h'.conds c with hc | ⟨hle, hlt, hc⟩
    · rw [hc]
      exact (h.conds c).imp_right fun hnew => ⟨hnew.1, by omega, hnew.2.2⟩
    · exact .inr ⟨by omega, hlt, hc⟩
  onces o ho := (h'.onces o (Nat.lt_of_lt_of_le ho h.nextHandle)).trans (h.onces o ho)

/-- A new mutex, initialized or not. -/
theorem addMutex_grows (s : Store) {m : Mutex} (hm : m = .raw ∨ m = .ready) :
    s.Grows (s.addMutex m).1 := by
  refine ⟨rfl, Nat.le_succ _, Nat.le_refl _, ?_, fun c => .inl rfl, fun o _ => rfl⟩
  intro l
  by_cases hl : l = s.nextHandle
  · subst hl
    refine .inr ⟨Nat.le_refl _, Nat.lt_succ_self _, ?_⟩
    rcases hm with rfl | rfl <;> simp [addMutex, takeHandle, setMutex, lock, Mutex.raw, Mutex.ready]
  · exact .inl (by simp [addMutex, takeHandle, setMutex, lock, Table.get_set, hl])

/-- A new condition variable, initialized or not. -/
theorem addCond_grows (s : Store) {cond : Condition}
    (hcond : cond = .raw ∨ ∃ backend, cond = .new backend) : s.Grows (s.addCond cond).1 := by
  refine ⟨rfl, Nat.le_succ _, Nat.le_refl _, fun l => .inl rfl, ?_, fun o _ => rfl⟩
  intro c
  by_cases hc : c = s.nextHandle
  · subst hc
    exact .inr ⟨Nat.le_refl _, Nat.lt_succ_self _, by simpa [addCond, takeHandle, setCond]⟩
  · exact .inl (by simp [addCond, takeHandle, setCond, Table.get_set, hc])

/-- A new run-once gate comes with a mutex of its own. -/
theorem addOnce_grows (s : Store) : s.Grows s.addOnce.1 := by
  refine (addMutex_grows s (.inr rfl)).trans
    ⟨rfl, Nat.le_succ _, Nat.le_refl _, fun l => .inl rfl, fun c => .inl rfl, ?_⟩
  intro o ho
  exact Table.get_set_of_ne _ _ (Nat.ne_of_lt ho)

theorem addMonitorOver_grows (s : Store) (l : LockRef) (backend : Backend) :
    s.Grows (s.addMonitorOver l backend).1 :=
  (addCond_grows s (.inr ⟨backend, rfl⟩)).trans (.of_same rfl (Nat.le_succ _))

/-- A creation changes nothing that there was. -/
theorem grows_apply (s : Store) (c : Creation) : s.Grows (c.apply s) := by
  cases c with
  | mutex ready => exact addMutex_grows s (by cases ready <;> simp)
  | condition => exact addCond_grows s (.inl rfl)
  | once => exact addOnce_grows s
  | monitor backend => exact (addMutex_grows s (.inr rfl)).trans (addMonitorOver_grows _ _ _)
  | sharing mo => exact addMonitorOver_grows s _ _
  | semaphore permits =>
    simp only [Creation.apply, addSemaphore?]
    split
    · rename_i heq
      split at heq
      · cases heq
        exact .of_same rfl (Nat.le_succ _)
      · cases heq
    · exact .of_same
  | events => exact .of_same rfl (Nat.le_succ _)
  | thread name stackSize =>
    obtain ⟨log, hreport⟩ := s.exists_reportName?_eq name
    simp only [Creation.apply, addThread, takeHandle, hreport]
    exact .of_same rfl (Nat.le_succ _)

/-- A creation takes no time, and leaves the threads of the operating system alone. -/
theorem same_of_apply (s : Store) (c : Creation) :
    (c.apply s).clock = s.clock ∧ (c.apply s).osThreads = s.osThreads := by
  cases c with
  | semaphore permits =>
    simp only [Creation.apply, addSemaphore?]
    cases permits.valid <;> exact ⟨rfl, rfl⟩
  | thread name stackSize =>
    obtain ⟨log, hreport⟩ := s.exists_reportName?_eq name
    simp only [Creation.apply, addThread, hreport]
    exact ⟨rfl, rfl⟩
  | _ => exact ⟨rfl, rfl⟩

end Store

/-! ## What a move is

`Machine.apply` finds the innermost call, takes its step and puts the result in its place. `Change`
is the same read backwards: one constructor for each thing that can have happened, with the call,
the rest of its thread's stack and the step as its data. Every lemma about moves is a case analysis
of `Change`, and none unfolds `apply` again. -/

/-- A step that ends its call, however it ends it. -/
def Progress.Ends {φ ρ : Type} (s' : Store) : Progress φ ρ → Prop
  | .done s _ | .fault s _ | .abort s => s = s'
  | _ => False

section

variable {φ ρ : Type} {p : Progress φ ρ} {s s' : Store} {next : Store → φ → Prop}

theorem Progress.Ends.storeFrom (h : p.Ends s') : p.storeFrom s = s' := by
  cases p <;> first | exact h | exact h.elim

/-- A last step meets what is required of its reply and of its failure; nothing is asked of a next
phase. -/
theorem Progress.Ends.meets {done : Store → ρ → Prop} {failed : Store → Prop} (h : p.Ends s')
    (hdone : ∀ reply, done s' reply) (hfailed : failed s') : p.Meets next done failed := by
  cases p <;> first | exact h.elim | (cases h; first | exact hdone _ | exact hfailed)

/-- What is required of the last step of a call, however the call ends, holds of the store that it
leaves. -/
theorem Progress.Meets.of_ends {P : Store → Prop} (h : p.Meets next (fun s _ => P s) P)
    (hends : p.Ends s') : P s' := by
  cases p <;> first | exact hends.elim | (cases hends; exact h)

end

/-- A destruction takes one step. -/
theorem Call.ends_destroy (t : Tid) (choice : Choice) (s : Store) (o : Object) (unwinding : Bool) :
    ((destroy o unwinding).step t choice s).Ends (s.destroy o unwinding).1 := by
  simp only [step, single, destroyStep]
  split <;> rename_i heq <;> rw [heq] <;> rfl

/-- So a call that goes on is no destruction. -/
theorem Call.ne_destroy_of_next {t : Tid} {choice : Choice} {s s' : Store} {call call' : Call}
    (h : call.step t choice s = .next s' call') (o : Object) (unwinding : Bool) :
    call ≠ .destroy o unwinding := by
  rintro rfl
  have hends := ends_destroy t choice s o unwinding
  rw [h] at hends
  exact hends

namespace Machine

/-- What a move does to a machine. -/
inductive Change (m : Machine) : Move → Machine → Prop
  /-- The client changes the store, or nothing happens. -/
  | client {move : Move} {s' : Store} (hgrows : m.store.Grows s') : Change m move ⟨s', m.calls⟩
  /-- A thread begins a call, on top of a call that waits for it. -/
  | begin {t : Tid} {call : Call} (hborn : t < m.store.nextThread) (hfresh : call.isFresh = true)
      (hknown : m.knows call = true)
      (hbelow : ∀ k outer, m.calls.get t = k :: outer → k.atBody = true) :
      Change m (.begin t call) ⟨m.store, m.calls.set t (call :: m.calls.get t)⟩
  /-- The client's code has ended and its call goes on. -/
  | resume {t : Tid} {call : Call} {outer : List Call} (e : BodyEnd)
      (hget : m.calls.get t = call :: outer) (hbody : call.atBody = true) :
      Change m (.endBody t e) ⟨m.store, m.calls.set t (call.resume e :: outer)⟩
  /-- A call takes a step; a thread that it has spawned begins. -/
  | next {t : Tid} {choice : Choice} {call call' : Call} {outer : List Call} {s' : Store}
      (hget : m.calls.get t = call :: outer)
      (hstep : call.step t choice m.store = .next s' call') :
      Change m (.advance t choice) (adopt ⟨s', m.calls.set t (call' :: outer)⟩ call'.child?)
  /-- A call takes its last step. -/
  | last {t : Tid} {choice : Choice} {call : Call} {outer : List Call} {s' : Store}
      (hget : m.calls.get t = call :: outer)
      (hunused : ∀ o unwinding, call = .destroy o unwinding → m.unused o = true)
      (hends : (call.step t choice m.store).Ends s') :
      Change m (.advance t choice) ⟨s', m.calls.set t outer⟩

variable {m m' : Machine} {move : Move}

theorem Change.refl (m : Machine) (move : Move) : m.Change move m := .client .of_same

/-- A step of a thread is a change, whether its call goes on, ends, or cannot take it. -/
theorem change_advance {t : Tid} {choice : Choice}
    (hallows : m.allows (.advance t choice) = true) :
    m.Change (.advance t choice) (m.advance t choice).1 := by
  unfold advance
  split
  · exact .refl m _
  · rename_i call outer hget
    have hunused (o : Object) (unwinding : Bool) (hcall : call = .destroy o unwinding) :
        m.unused o = true := by
      subst hcall
      simpa [allows, call?, hget] using hallows
    split
    · exact .next hget ‹_›
    · exact .last hget hunused (by rw [‹call.step t choice m.store = _›]; exact rfl)
    · exact .last hget hunused (by rw [‹call.step t choice m.store = _›]; exact rfl)
    · exact .refl m _
    · exact .last hget hunused (by rw [‹call.step t choice m.store = _›]; exact rfl)

@[simp] theorem adopt_store (m : Machine) (child : Option (Tid × ThreadId)) :
    (m.adopt child).store = m.store := by
  cases child <;> rfl

/-- The store after a step of thread `t` is the one that the step of its innermost call leaves. -/
theorem advance_store (choice : Choice) {t : Tid} {call : Call} {outer : List Call}
    (hget : m.calls.get t = call :: outer) :
    (m.advance t choice).1.store = (call.step t choice m.store).storeFrom m.store := by
  simp only [advance, hget]
  cases call.step t choice m.store with
  | next s' call' => exact adopt_store ..
  | _ => rfl

/-- What the step of a call keeps, the step of its thread keeps. -/
theorem advance_keeps {P : Store → Prop} {t : Tid} (choice : Choice) (hsame : P m.store)
    (hstep : ∀ call, m.call? t = some call → (call.step t choice m.store).Keeps P) :
    P (m.advance t choice).1.store := by
  cases hget : m.calls.get t with
  | nil => simpa only [advance, hget] using hsame
  | cons call outer =>
    rw [advance_store choice hget]
    exact (hstep call (by rw [call?, hget, List.head?_cons])).storeFrom hsame

/-- The end of a body puts the resumed call in the place of the one that ran it. -/
theorem endBody_of_get {t : Tid} {call : Call} {outer : List Call}
    (hget : m.calls.get t = call :: outer) (e : BodyEnd) :
    m.endBody t e = { m with calls := m.calls.set t (call.resume e :: outer) } := by
  simp only [endBody, hget]

@[simp] theorem endBody_store (m : Machine) (t : Tid) (e : BodyEnd) :
    (m.endBody t e).store = m.store := by
  unfold endBody
  split <;> rfl

/-- What a client keeps, and what the steps of calls keep, every move keeps. -/
theorem Change.keeps {P : Store → Prop} (hchange : m.Change move m')
    (hclient : ∀ s', m.store.Grows s' → P s')
    (hstep : ∀ t choice call, move = .advance t choice → m.call? t = some call →
      (∀ o unwinding, call = .destroy o unwinding → m.unused o = true) →
        (call.step t choice m.store).Keeps P) :
    P m'.store := by
  cases hchange with
  | client hgrows => exact hclient _ hgrows
  | begin | resume => exact hclient _ .of_same
  | @next t choice call call' outer s' hget hnext =>
    have hcall : m.call? t = some call := by rw [call?, hget, List.head?_cons]
    have hkeeps := hstep t choice call rfl hcall fun o unwinding heq =>
      absurd heq (Call.ne_destroy_of_next hnext o unwinding)
    rw [hnext] at hkeeps
    rw [adopt_store]
    exact hkeeps
  | @last t choice call outer s' hget hunused hends =>
    have hcall : m.call? t = some call := by rw [call?, hget, List.head?_cons]
    exact (hstep t choice call rfl hcall hunused).of_ends hends

/-- Every possible move is one of these changes. -/
theorem change_apply (hallows : m.allows move = true) : m.Change move (m.apply move) := by
  cases move with
  | begin t call =>
    simp only [allows, inClient, lives, Bool.and_eq_true, decide_eq_true_eq] at hallows
    refine .begin hallows.1.1.1.1 hallows.1.2 hallows.2 ?_
    intro k outer hget
    simpa [call?, hget] using hallows.1.1.2
  | advance t choice => exact change_advance hallows
  | endBody t e =>
    simp only [apply, endBody]
    split
    · exact .refl m _
    · rename_i call outer hget
      exact .resume e hget (by simpa [allows, call?, hget] using hallows)
  | create c => exact .client (Store.grows_apply _ c)
  | spawn creator =>
    exact .client (.of_same rfl (Nat.le_refl _) (Nat.le_succ _))
  | exit t ending => exact .client .of_same
  | tick n => exact .client .of_same

end Machine

/-! ## Machines with well-formed stacks

A call that runs its client's code stays in its body while the calls above it move, and it works on
objects that exist. This is the one invariant that everything else presupposes; it is carried by
`Sound.change`, one case for each constructor of `Change`, each of which exchanges the stack of one
thread (`Sound.set`). -/

namespace Machine

variable {m m' : Machine} {move : Move}

/-- What holds of the calls in progress. -/
structure Sound (m : Machine) : Prop where
  /-- Only the innermost call of a thread moves. -/
  waiting : ∀ t call outer, m.calls.get t = call :: outer → ∀ k ∈ outer, k.atBody = true
  unborn : ∀ t, m.store.nextThread ≤ t → m.calls.get t = []
  known : ∀ t, ∀ call ∈ m.calls.get t, m.knows call = true

theorem sound_initial : initial.Sound where
  waiting _ _ _ hget := nomatch hget
  unborn _ _ := rfl
  known _ _ hcall := nomatch hcall

/-- A known call works on the same objects, whatever happens to the store. -/
theorem objects_congr {s' : Store}
    (hgates : ∀ o < m.store.nextHandle, (s'.onces.get o).lock = (m.store.onces.get o).lock)
    {call : Call} (h : m.knows call = true) : call.objects s' = call.objects m.store := by
  cases call with
  | once o p =>
    have ho : o < m.store.nextHandle := Call.handle_lt_of_knows h List.mem_cons_self
    simp only [Call.objects, hgates o ho]
  | _ => rfl

/-- A known call stays known when the store grows. -/
theorem knows_congr {s' : Store} {calls : Table (List Call)}
    (hhandle : m.store.nextHandle ≤ s'.nextHandle)
    (hgates : ∀ o < m.store.nextHandle, (s'.onces.get o).lock = (m.store.onces.get o).lock)
    {call : Call} (h : m.knows call = true) : knows ⟨s', calls⟩ call = true := by
  simp only [knows, objects_congr hgates h]
  simp only [knows, List.all_eq_true, decide_eq_true_eq] at h ⊢
  intro o ho
  exact Nat.lt_of_lt_of_le (h o ho) hhandle

theorem frame_of_ends {t : Tid} {choice : Choice} {s s' : Store} {call : Call}
    (h : (call.step t choice s).Ends s') : s.Frame s' :=
  Progress.Meets.of_ends call.step_frame h

/-- A call that goes on keeps the frame of the store. -/
theorem frame_of_next {t : Tid} {choice : Choice} {s s' : Store} {call call' : Call}
    (h : call.step t choice s = .next s' call') : s.Frame s' := by
  have hframe : (call.step t choice s).Keeps s.Frame := call.step_frame
  rw [h] at hframe
  exact hframe

namespace Sound

/-- The stacks of a machine when those of one thread are exchanged. -/
theorem set (h : m.Sound) {s' : Store} {t : Tid} {calls : List Call}
    (hhandle : m.store.nextHandle ≤ s'.nextHandle) (hthread : m.store.nextThread ≤ s'.nextThread)
    (hgates : ∀ o < m.store.nextHandle, (s'.onces.get o).lock = (m.store.onces.get o).lock)
    (hborn : t < s'.nextThread)
    (hwaiting : ∀ call outer, calls = call :: outer → ∀ k ∈ outer, k.atBody = true)
    (hknown : ∀ call ∈ calls, knows ⟨s', m.calls⟩ call = true) :
    Sound ⟨s', m.calls.set t calls⟩ where
  waiting u call outer hget := by
    simp only [Table.get_set] at hget
    split at hget
    · exact hwaiting call outer hget
    · exact h.waiting u call outer hget
  unborn u hu := by
    have hne : u ≠ t := by
      rintro rfl
      exact absurd hborn (Nat.not_lt.2 hu)
    exact (Table.get_set_of_ne _ _ hne).trans (h.unborn u (Nat.le_trans hthread hu))
  known u call hcall := by
    simp only [Table.get_set] at hcall
    split at hcall
    · exact hknown call hcall
    · exact knows_congr hhandle hgates (h.known u call hcall)

/-- A thread that is in a call exists. -/
theorem born (h : m.Sound) {t : Tid} {call : Call} {outer : List Call}
    (hget : m.calls.get t = call :: outer) : t < m.store.nextThread := by
  apply Nat.lt_of_not_le
  intro hle
  rw [h.unborn t hle] at hget
  cases hget

/-- A call that goes on stays above calls that wait, and works on the objects that it worked on. -/
theorem next (h : m.Sound) {t : Tid} {choice : Choice} {call call' : Call} {outer : List Call}
    {s' : Store} (hget : m.calls.get t = call :: outer)
    (hstep : call.step t choice m.store = .next s' call') :
    Sound ⟨s', m.calls.set t (call' :: outer)⟩ := by
  have hframe := frame_of_next hstep
  have hknows (k : Call) (hk : m.knows k = true) : knows ⟨s', m.calls⟩ k = true :=
    knows_congr (Nat.le_of_eq hframe.nextHandle.symm) (fun o _ => hframe.gates o) hk
  refine h.set (Nat.le_of_eq hframe.nextHandle.symm) hframe.nextThread
    (fun o _ => hframe.gates o) (Nat.lt_of_lt_of_le (h.born hget) hframe.nextThread) ?_ ?_
  · intro k outer' heq
    cases heq
    exact h.waiting t _ _ hget
  · intro k hk
    rcases List.mem_cons.1 hk with rfl | hk
    · have hcall := hknows call (h.known t call (hget ▸ List.mem_cons_self))
      simpa only [knows, ← Call.objects_origin s' call, ← Call.objects_origin s' k,
        Call.origin_of_step hstep] using hcall
    · exact hknows k (h.known t k (hget ▸ List.mem_cons_of_mem _ hk))

/-- Every change keeps the stacks well-formed. -/
theorem change (h : m.Sound) (hchange : m.Change move m') : m'.Sound := by
  cases hchange with
  | client hgrows =>
    refine ⟨h.waiting, ?_, ?_⟩
    · intro t ht
      exact h.unborn t (Nat.le_trans hgrows.nextThread ht)
    · intro t call hcall
      exact knows_congr hgrows.nextHandle hgrows.gates (h.known t call hcall)
  | @begin t call hborn hfresh hknown hbelow =>
    refine h.set (Nat.le_refl _) (Nat.le_refl _) (fun o _ => rfl) hborn ?_ ?_
    · intro k outer heq
      cases heq
      intro k hk
      -- the call below waits in its body, and those below it did so before
      cases hget : m.calls.get t with
      | nil => simp [hget] at hk
      | cons k' outer =>
        rw [hget] at hk
        rcases List.mem_cons.1 hk with rfl | hk
        · exact hbelow _ _ hget
        · exact h.waiting t _ _ hget k hk
    · intro k hk
      rcases List.mem_cons.1 hk with rfl | hk
      · exact hknown
      · exact h.known t k hk
  | @resume t call outer e hget hbody =>
    refine h.set (Nat.le_refl _) (Nat.le_refl _) (fun o _ => rfl) (h.born hget) ?_ ?_
    · intro k outer' heq
      cases heq
      exact h.waiting t _ _ hget
    · intro k hk
      rcases List.mem_cons.1 hk with rfl | hk
      · have hcall := h.known t call (hget ▸ List.mem_cons_self)
        simpa only [knows, Call.objects_resume] using hcall
      · exact h.known t k (hget ▸ List.mem_cons_of_mem _ hk)
  | @next t choice call call' outer s' hget hstep =>
    have hmoved := h.next hget hstep
    cases hchild : call'.child? with
    | none => exact hmoved
    | some pair =>
      obtain ⟨child, id⟩ := pair
      obtain ⟨rfl, hthread, -⟩ := Call.child_of_step hstep hchild
      -- the stack of the new thread is a single call, which works on no object
      refine hmoved.set (Nat.le_refl _) (Nat.le_refl _) (fun o _ => rfl) ?_ ?_ ?_
      · rw [hthread]
        exact Nat.lt_succ_self _
      · intro k outer' heq
        cases heq
        simp
      · intro k hk
        simp only [List.mem_singleton] at hk
        subst hk
        rfl
  | @last t choice call outer s' hget hunused hends =>
    have hframe := frame_of_ends hends
    refine h.set (Nat.le_of_eq hframe.nextHandle.symm) hframe.nextThread
      (fun o _ => hframe.gates o) (Nat.lt_of_lt_of_le (h.born hget) hframe.nextThread) ?_ ?_
    · intro k outer' heq k' hk'
      subst heq
      exact h.waiting t _ _ hget k' (List.mem_cons_of_mem _ hk')
    · intro k hk
      exact knows_congr (Nat.le_of_eq hframe.nextHandle.symm) (fun o _ => hframe.gates o)
        (h.known t k (hget ▸ List.mem_cons_of_mem _ hk))

end Sound

/-- A move makes no object anew, and gives no gate another mutex. -/
theorem Change.handles (hchange : m.Change move m') :
    m.store.nextHandle ≤ m'.store.nextHandle ∧
      ∀ o < m.store.nextHandle, (m'.store.onces.get o).lock = (m.store.onces.get o).lock := by
  refine hchange.keeps (P := fun s' => m.store.nextHandle ≤ s'.nextHandle ∧
    ∀ o < m.store.nextHandle, (s'.onces.get o).lock = (m.store.onces.get o).lock)
    (fun s' hgrows => ⟨hgrows.nextHandle, hgrows.gates⟩) fun t choice call _ _ _ => ?_
  refine Progress.Keeps.imp call.step_frame fun s' hframe => ?_
  exact ⟨Nat.le_of_eq hframe.nextHandle.symm, fun o _ => hframe.gates o⟩

/-- A call that does not run its client's code goes on only when its thread takes a step. -/
theorem Change.calls_kept (hchange : m.Change move m') (hsound : m.Sound) {t : Tid} {call : Call}
    {outer : List Call} (hget : m.calls.get t = call :: outer) (hbody : call.atBody = false)
    (hmove : ∀ choice, move ≠ .advance t choice) : m'.calls.get t = call :: outer := by
  cases hchange with
  | client => exact hget
  | @begin u _ _ _ _ hbelow =>
    have hu : t ≠ u := by
      rintro rfl
      exact absurd (hbelow call outer hget) (by simp [hbody])
    exact (Table.get_set_of_ne _ _ hu).trans hget
  | @resume u call' outer' e hget' hbody' =>
    have hu : t ≠ u := by
      rintro rfl
      cases hget.symm.trans hget'
      simp [hbody] at hbody'
    exact (Table.get_set_of_ne _ _ hu).trans hget
  | @next u choice call' call'' outer' s' hget' hstep =>
    have hu : t ≠ u := by
      rintro rfl
      exact hmove choice rfl
    have hmoved := (Table.get_set_of_ne m.calls (call'' :: outer') hu).trans hget
    cases hchild : call''.child? with
    | none => exact hmoved
    | some pair =>
      obtain ⟨child, id⟩ := pair
      -- a new thread gets a number that has no calls yet, so it is not `t`
      obtain ⟨rfl, -⟩ := Call.child_of_step hstep hchild
      exact (Table.get_set_of_ne _ _ (Nat.ne_of_lt (hsound.born hget))).trans hmoved
  | @last u choice call' outer' s' hget' =>
    have hu : t ≠ u := by
      rintro rfl
      exact hmove choice rfl
    exact (Table.get_set_of_ne _ _ hu).trans hget

/-- No call in progress works on what goes away with an unused object. -/
theorem not_mem_objects (hsound : m.Sound) {o part : Object} (hunused : m.unused o = true)
    (hpart : part ∈ o.parts m.store) {t : Tid} {call : Call} (hcall : call ∈ m.calls.get t) :
    part ∉ call.objects m.store := by
  have hborn : t < m.store.nextThread := by
    apply Nat.lt_of_not_le
    intro hle
    rw [hsound.unborn t hle] at hcall
    cases hcall
  simp only [unused, List.all_eq_true, List.mem_range] at hunused
  simpa using hunused t hborn call hcall part hpart

/-! ## What one sees of the innermost calls

A view maps the innermost call of each thread to what an invariant needs of it: the identities in
its hands, its part in a condition variable, its place in a gate. The lemmas of this section turn
"every move keeps the invariant" into one statement about the steps of calls: in a move the view
changes for one thread at most, and there as a step of that thread's call says (`Change.see`). The
exception is a thread that has just been spawned, which is seen to hold the identity it was given
(`Change.sight`). -/

/-- What `f` sees of the innermost call of thread `t`, and `d` if the thread is in no call. -/
def see {β : Type} (m : Machine) (f : Call → β) (d : β) (t : Tid) : β :=
  ((m.call? t).map f).getD d

theorem call?_of_get {t : Tid} {call : Call} {outer : List Call}
    (hget : m.calls.get t = call :: outer) : m.call? t = some call := by
  rw [call?, hget, List.head?_cons]

theorem mem_of_call? {t : Tid} {call : Call} (h : m.call? t = some call) :
    call ∈ m.calls.get t :=
  List.mem_of_head? h

theorem see_of_call? {β : Type} {f : Call → β} {d : β} {t : Tid} {call : Call}
    (h : m.call? t = some call) : m.see f d t = f call := by
  rw [see, h]
  rfl

/-- A thread is seen as one in no call, or in one that looks so. -/
theorem see_eq {β : Type} {f : Call → β} {d : β} {t : Tid}
    (h : ∀ call, m.call? t = some call → f call = d) : m.see f d t = d := by
  cases hcall : m.call? t with
  | none => rw [see, hcall]; rfl
  | some call => exact (see_of_call? hcall).trans (h call hcall)

theorem see_of_get {β : Type} {f : Call → β} {d : β} {t : Tid} {call : Call} {outer : List Call}
    (hget : m.calls.get t = call :: outer) : m.see f d t = f call := by
  simp [see, call?, hget]

/-- What is seen when the stack of one thread is exchanged. -/
theorem see_set {β : Type} {f : Call → β} {d : β} (s : Store) (calls : Table (List Call))
    (t u : Tid) (stack : List Call) :
    see ⟨s, calls.set t stack⟩ f d u =
      if u = t then (stack.head?.map f).getD d else ((calls.get u).head?.map f).getD d := by
  simp only [see, call?, Table.get_set]
  split <;> rfl

/-- Thread `u` has just been spawned by thread `t` and is to install the identity it was given. -/
def Adopts (m m' : Machine) (t u : Tid) : Prop :=
  ∃ r id, m.call? t = some (.start r (.spawn id)) ∧ m'.call? t = some (.start r (.record id u)) ∧
    m.call? u = none ∧ m'.call? u = some (.install id) ∧ m'.store.ids = m.store.ids

/-- A view of calls that sees nothing of a calm one, and looks at the store only for which mutex a
known run-once gate uses. -/
structure View {β : Type} (m : Machine) (f : Store → Call → β) (d : β) : Prop where
  calm : ∀ s call, call.Calm → f s call = d
  steady : ∀ s' call, m.knows call = true →
    (∀ o < m.store.nextHandle, (s'.onces.get o).lock = (m.store.onces.get o).lock) →
    f s' call = f m.store call

section

variable {β : Type} {f : Store → Call → β} {d : β} {t u : Tid} {choice : Choice}
  {call call' : Call} {outer : List Call} {s' : Store}

/-- A thread that keeps its calls is seen as before. -/
theorem View.kept (hview : m.View f d) (hsound : m.Sound)
    (hgates : ∀ o < m.store.nextHandle, (s'.onces.get o).lock = (m.store.onces.get o).lock) :
    ((m.calls.get u).head?.map (f s')).getD d = m.see (f m.store) d u := by
  cases hget : m.calls.get u with
  | nil => simp [Machine.see, call?, hget]
  | cons call outer =>
    rw [see_of_get hget]
    exact hview.steady s' call (hsound.known u call (hget ▸ List.mem_cons_self)) hgates

/-- Nothing is seen of a thread whose innermost call runs its client's code. -/
theorem View.body (hview : m.View f d) {s : Store} (h : ∀ k ∈ outer, k.atBody = true) :
    (outer.head?.map (f s)).getD d = d := by
  cases outer with
  | nil => rfl
  | cons k outer => exact hview.calm s k (.body (h k List.mem_cons_self))

/-- A thread whose call goes on is seen in its next phase. -/
theorem see_next (hsound : m.Sound) (hget : m.calls.get t = call :: outer)
    (hnext : call.step t choice m.store = .next s' call') :
    (adopt ⟨s', m.calls.set t (call' :: outer)⟩ call'.child?).see (f s') d t = f s' call' := by
  cases hchild : call'.child? with
  | none =>
    rw [adopt, see_set, if_pos rfl]
    rfl
  | some pair =>
    obtain ⟨child, id⟩ := pair
    obtain ⟨rfl, -⟩ := Call.child_of_step hnext hchild
    rw [adopt, see_set, if_neg (Nat.ne_of_lt (hsound.born hget)), Table.get_set_self]
    rfl

/-- The other threads are seen as before, but for one that the call has spawned. -/
theorem View.next_others (hview : m.View f d) (hsound : m.Sound)
    (hget : m.calls.get t = call :: outer)
    (hnext : call.step t choice m.store = .next s' call') (hu : u ≠ t) :
    (adopt ⟨s', m.calls.set t (call' :: outer)⟩ call'.child?).see (f s') d u =
        m.see (f m.store) d u ∨
      m.Adopts (adopt ⟨s', m.calls.set t (call' :: outer)⟩ call'.child?) t u := by
  have hkept := hview.kept (u := u) hsound fun o _ => (frame_of_next hnext).gates o
  cases hchild : call'.child? with
  | none =>
    rw [adopt, see_set, if_neg hu]
    exact .inl hkept
  | some pair =>
    obtain ⟨child, id⟩ := pair
    obtain ⟨rfl, -, hids, r, rfl, rfl⟩ := Call.child_of_step hnext hchild
    by_cases hu' : u = m.store.nextThread
    · subst hu'
      refine .inr ⟨r, id, call?_of_get hget, ?_, ?_, ?_, hids⟩
      · rw [adopt, call?, Table.get_set_of_ne _ _ (Nat.ne_of_lt (hsound.born hget)),
          Table.get_set_self, List.head?_cons]
      · rw [call?, hsound.unborn _ (Nat.le_refl _), List.head?_nil]
      · rw [adopt, call?, Table.get_set_self, List.head?_cons]
    · rw [adopt, see_set, if_neg hu', Table.get_set_of_ne _ _ hu]
      exact .inl hkept

variable {Q : Tid → Store → β → β → Prop} (hview : m.View f d) (hsound : m.Sound)
  (hclient : ∀ t s' p, m.store.Grows s' → Q t s' p p)
  (hstep : ∀ t choice call, move = .advance t choice → m.call? t = some call →
    (∀ o unwinding, call = .destroy o unwinding → m.unused o = true) →
    (call.step t choice m.store).Meets (fun s' call' => Q t s' (f m.store call) (f s' call'))
      (fun s' _ => Q t s' (f m.store call) d) (fun s' => Q t s' (f m.store call) d))
include hview hsound hclient hstep

/-- A view changes, in a move, for at most one thread and for a thread that this one spawns; and it
changes as a step of the thread's call says. -/
theorem Change.sight (hchange : m.Change move m') :
    ∃ t, Q t m'.store (m.see (f m.store) d t) (m'.see (f m'.store) d t) ∧
      ∀ u, u ≠ t → m'.see (f m'.store) d u = m.see (f m.store) d u ∨ m.Adopts m' t u := by
  cases hchange with
  | @client _ s' hgrows =>
    have hsame (u : Tid) : Machine.see ⟨s', m.calls⟩ (f s') d u = m.see (f m.store) d u :=
      hview.kept hsound hgrows.gates
    refine ⟨0, ?_, fun u _ => .inl (hsame u)⟩
    rw [hsame 0]
    exact hclient 0 s' _ hgrows
  | @begin t call hborn hfresh hknown hbelow =>
    refine ⟨t, ?_, ?_⟩
    · -- the thread ran its client's code, of which nothing is seen
      have hbefore : m.see (f m.store) d t = d := by
        refine see_eq fun k hk => hview.calm _ k (.body ?_)
        obtain ⟨outer, hget⟩ := List.head?_eq_some_iff.1 hk
        exact hbelow k outer hget
      rw [hbefore, see_set, if_pos rfl]
      simp only [List.head?_cons, Option.map_some, Option.getD_some,
        hview.calm _ call (.fresh hfresh)]
      exact hclient t _ _ .of_same
    · intro u hu
      rw [see_set, if_neg hu]
      exact .inl rfl
  | @resume t call outer e hget hcall =>
    refine ⟨t, ?_, ?_⟩
    · rw [see_of_get hget, hview.calm _ call (.body hcall), see_set, if_pos rfl]
      simp only [List.head?_cons, Option.map_some, Option.getD_some,
        hview.calm _ _ (.resumed e hcall)]
      exact hclient t _ _ .of_same
    · intro u hu
      rw [see_set, if_neg hu]
      exact .inl rfl
  | @next t choice call call' outer s' hget hnext =>
    have hmeets := hstep t choice call rfl (call?_of_get hget) fun o unwinding heq =>
      absurd heq (Call.ne_destroy_of_next hnext o unwinding)
    have hstore := adopt_store ⟨s', m.calls.set t (call' :: outer)⟩ call'.child?
    rw [hnext] at hmeets
    refine ⟨t, ?_, ?_⟩
    · rw [hstore, see_of_get hget, see_next hsound hget hnext]
      exact hmeets
    · intro u hu
      rw [hstore]
      exact hview.next_others hsound hget hnext hu
  | @last t choice call outer s' hget hunused hends =>
    have hmeets := hstep t choice call rfl (call?_of_get hget) hunused
    refine ⟨t, ?_, ?_⟩
    · rw [see_of_get hget, see_set, if_pos rfl, hview.body (hsound.waiting t call outer hget)]
      exact hmeets.of_ends hends
    · intro u hu
      rw [see_set, if_neg hu]
      exact .inl (hview.kept hsound fun o _ => (frame_of_ends hends).gates o)

/-- A view that sees nothing either of a thread that is about to install its identity changes for
at most one thread in a move. -/
theorem Change.see (hinstall : ∀ s id, f s (.install id) = d) (hchange : m.Change move m') :
    ∃ t, Q t m'.store (m.see (f m.store) d t) (m'.see (f m'.store) d t) ∧
      ∀ u, u ≠ t → m'.see (f m'.store) d u = m.see (f m.store) d u := by
  obtain ⟨t, hQ, hothers⟩ := Change.sight hview hsound hclient hstep hchange
  refine ⟨t, hQ, ?_⟩
  intro u hu
  rcases hothers u hu with hsame | ⟨r, token, -, -, hbefore, hafter, -⟩
  · exact hsame
  · simp [Machine.see, hbefore, hafter, hinstall]

end

end Machine

theorem Run.state_sound (r : Run) (i : Nat) : (r.state i).Sound := by
  refine r.invariant Machine.sound_initial ?_ i
  intro m move hallows h
  exact h.change (Machine.change_apply hallows)

theorem Run.state_change (r : Run) (i : Nat) : (r.state i).Change (r.move i) (r.state (i + 1)) :=
  Machine.change_apply (r.state_allows i)

/-- Handles are given out and never taken back. -/
theorem Run.nextHandle_mono (r : Run) {n k : Nat} (h : n ≤ k) :
    (r.state n).store.nextHandle ≤ (r.state k).store.nextHandle := by
  induction h with
  | refl => exact Nat.le_refl _
  | step _ ih => exact Nat.le_trans ih ((r.state_change _).handles.1)

end Interlock
