import Interlock.Proofs.Depth

/-!
# What happens to thread objects

A thread object is written only by the calls that work on it: a change of its settings, the last
step of a start, both steps of a join, and a detach.

  * `Call.Touches`: what a step of a call makes of a thread object, and `Call.step_touches`: no
    step does more;
  * `Machine.threadEvent`: the same for a move;
  * `Machine.Borrowed`: where no two calls are on one thread object, an object that is not running
    has no handle.
-/

namespace Interlock

variable {t : Tid} {s : Store} {choice : Choice}

/-! ## Steps

What a call does to a thread object is read off the code once, for all the invariants about thread
objects. The list is short: most steps write nothing. -/

/-- A call that works on no thread object leaves all of them alone. -/
theorem Call.step_threads {call : Call} (h : call.thread? = none) :
    (call.step t choice s).Keeps (·.threads = s.threads) := by
  by_cases hgate : ∃ o, call = .once o .complete
  · obtain ⟨o, rfl⟩ := hgate
    exact rfl
  · by_cases hdestroy : ∃ o unwinding, call = .destroy o unwinding
    · obtain ⟨o, unwinding, rfl⟩ := hdestroy
      exact (step_destroy o unwinding).imp fun _ ⟨_, _, _, _, hs⟩ => hs ▸ rfl
    · exact (step_settled h (fun o unwinding heq => hdestroy ⟨o, unwinding, heq⟩)
        fun o heq => hgate ⟨o, heq⟩).imp fun _ hs => hs.threads

/-- A call stays on its thread object. -/
theorem Call.thread_of_step {call call' : Call} {s' : Store}
    (h : call.step t choice s = .next s' call') : call.thread? = call'.thread? := by
  have hkind := origin_of_step h
  have horigin (k : Call) : k.origin.thread? = k.thread? := by cases k <;> rfl
  rw [← horigin, ← hkind, horigin]

theorem Thread.running_iff {th : Thread} : th.running = true ↔ th.state = .running := by
  simp [running]

theorem Thread.not_running_iff {th : Thread} : th.running = false ↔ th.state ≠ .running := by
  simp [running]

/-- A thread object that can be joined or detached. -/
def Thread.isHeld (th : Thread) : Bool := th.running && th.handle.isSome

/-- What a step of a call on thread object `r` makes of it. -/
inductive Call.Touches (r : ThreadRef) (th : Thread) : Call → Thread → Prop
  | configured {setting : ThreadSetting} :
    Touches r th (.configure r setting) (th.configured setting)
  | started {id : ThreadId} {child : Tid} :
    Touches r th (.start r (.record id child)) (th.started id child)
  /-- A join takes the handle, also where it then fails. -/
  | taken : Touches r th (.join r .entry) { th with handle := none }
  | joined {child : Tid} : Touches r th (.join r (.waiting child)) (th.released .joined)
  | detached (h : th.isHeld = true) :
    Touches r th (.detach r) ({ th with handle := none }.released .detached)
  | refused (h : th.isHeld = false) : Touches r th (.detach r) { th with handle := none }

/-- Thread objects are as they were, but for one that the call works on. -/
def Store.Touched (s : Store) (call : Call) (s' : Store) : Prop :=
  ∀ r, s'.threads.get r = s.threads.get r ∨ call.Touches r (s.threads.get r) (s'.threads.get r)

/-- A step that writes one thread object. -/
theorem Call.Touches.touched {s' : Store} {call : Call} {r : ThreadRef} {th : Thread}
    (h : call.Touches r (s.threads.get r) th)
    (hset : ∀ r', s'.threads.get r' = if r' = r then th else s.threads.get r') :
    s.Touched call s' := by
  intro r'
  rw [hset]
  split
  · subst r'
    exact .inr h
  · exact .inl rfl

/-- A join or a detach finds the object running and takes its handle, or it fails. -/
theorem takeRunning_cases {φ ρ : Type} (s : Store) (r : ThreadRef) (op : ThreadOp)
    (step : Store → Tid → Progress φ ρ) :
    (∃ child, (s.threads.get r).isHeld = true ∧ (s.threads.get r).handle = some child ∧
      takeRunning r op s step =
        step (s.setThread r { s.threads.get r with handle := none }) child) ∨
    (s.threads.get r).isHeld = false ∧ takeRunning r op s step =
      (s.setThread r { s.threads.get r with handle := none }).violate
        (.notRunning op (s.threads.get r).state) := by
  unfold takeRunning Thread.isHeld Thread.running
  dsimp only
  split
  · rename_i child hstate hhandle
    exact .inl ⟨child, by rw [hstate, hhandle]; rfl, hhandle, rfl⟩
  · rename_i state handle hnot
    refine .inr ⟨?_, rfl⟩
    cases hhandle : (s.threads.get r).handle with
    | none => simp
    | some child =>
      have hstate : (s.threads.get r).state ≠ .running := fun heq => hnot child heq hhandle
      simp [hstate]

/-- No step of a call does more to thread objects. -/
theorem Call.step_touches (call : Call) :
    (call.step t choice s).Keeps (s.Touched call) := by
  cases hcall : call.thread? with
  | none =>
    refine (step_threads hcall).imp ?_
    intro s' hs r
    exact .inl (by rw [hs])
  | some r =>
    -- the steps that write no thread object
    have hsame {s' : Store} (hs : s'.threads = s.threads) : s.Touched call s' :=
      fun r => .inl (by rw [hs])
    cases call with
    | configure r setting =>
      obtain ⟨log, hstore⟩ := s.exists_configureThread_eq r setting
      simp only [step, single, configureStep, hstore]
      exact Touches.configured.touched fun _ => Table.get_set ..
    | start r p =>
      cases p with
      | record id child => exact Touches.started.touched fun _ => Table.get_set ..
      | _ =>
        simp only [step, lift, StartPhase.step, Store.violate]
        (repeat' split) <;> exact hsame rfl
    | join r p =>
      cases p with
      | entry =>
        simp only [step, lift, JoinPhase.step]
        rcases takeRunning_cases s r .join fun s child => .next s (JoinPhase.waiting child) with
          ⟨child, -, -, heq⟩ | ⟨-, heq⟩ <;> rw [heq] <;>
          exact Touches.taken.touched fun _ => Table.get_set ..
      | waiting child =>
        simp only [step, lift, JoinPhase.step, JoinPhase.finish]
        (repeat' split) <;> first
          | exact trivial
          | exact hsame rfl
          | exact Touches.joined.touched fun _ => Table.get_set ..
    | detach r =>
      simp only [step, single, detachStep]
      rcases takeRunning_cases s r .detach _ with
        ⟨child, hheld, -, heq⟩ | ⟨hheld, heq⟩ <;> rw [heq]
      · refine (Touches.detached hheld).touched fun r' => ?_
        simp only [Store.setThread, Store.report, Table.get_set]
        split <;> simp
      · exact (Touches.refused hheld).touched fun _ => Table.get_set ..
    | _ => cases hcall

/-! ## Moves

A thread object comes with a creation, and then changes with the calls on it. -/

/-- A client changes no thread object, and a new one has not been started. -/
theorem Creation.threads_cases (s : Store) (c : Creation) (r : ThreadRef) :
    (c.apply s).threads.get r = s.threads.get r ∨
      s.nextHandle ≤ r ∧ ∃ name stackSize, (c.apply s).threads.get r = .new name stackSize := by
  cases c with
  | thread name stackSize =>
    obtain ⟨log, hreport⟩ := s.exists_reportName?_eq name
    simp only [apply, Store.addThread, Store.takeHandle, Store.setThread, Table.get_set, hreport]
    split
    · exact .inr ⟨Nat.le_of_eq (Eq.symm ‹_›), _, _, rfl⟩
    · exact .inl rfl
  | semaphore permits =>
    simp only [apply, Store.addSemaphore?]
    cases permits.valid <;> exact .inl rfl
  | _ => exact .inl rfl

namespace Machine

variable {m : Machine} {move : Move}

/-- What a move makes of thread object `r`. -/
inductive ThreadEvent (m : Machine) (move : Move) (m' : Machine) (r : ThreadRef) : Prop
  | kept (hsame : m'.store.threads.get r = m.store.threads.get r)
  | new {name : Option String} {stackSize : Option Nat} (hhandle : m.store.nextHandle ≤ r)
    (hnew : m'.store.threads.get r = .new name stackSize)
  | touched {t : Tid} {choice : Choice} {call : Call} (hmove : move = .advance t choice)
    (hcall : m.call? t = some call)
    (htouches : call.Touches r (m.store.threads.get r) (m'.store.threads.get r))

/-- Every move does one of these to a thread object. -/
theorem threadEvent (m : Machine) (move : Move) (r : ThreadRef) :
    m.ThreadEvent move (m.apply move) r := by
  cases move with
  | create c =>
    rcases c.threads_cases m.store r with hsame | ⟨hhandle, name, stackSize, hnew⟩
    · exact .kept hsame
    · exact .new hhandle hnew
  | advance t choice =>
    have hcases : (m.advance t choice).1.store.threads.get r = m.store.threads.get r ∨
        ∃ call, m.call? t = some call ∧
          call.Touches r (m.store.threads.get r) ((m.advance t choice).1.store.threads.get r) := by
      refine advance_keeps (P := fun s => s.threads.get r = m.store.threads.get r ∨
        ∃ call, m.call? t = some call ∧ call.Touches r (m.store.threads.get r) (s.threads.get r))
        choice (.inl rfl) fun call hcall => ?_
      exact call.step_touches.imp fun s htouched =>
        (htouched r).imp_right fun htouches => ⟨call, hcall, htouches⟩
    rcases hcases with hsame | ⟨call, hcall, htouches⟩
    · exact .kept hsame
    · exact .touched rfl hcall htouches
  | endBody t e => exact .kept (by rw [apply, endBody_store])
  | begin | spawn | exit | tick => exact .kept rfl

/-! ## Handles

In the program a call on a thread object borrows it exclusively, so no two calls are on one object
at a time. That is a condition on the run (`Run.Borrows`), and the handles are in order under it: an
object that is not running has none. -/

theorem Call.not_body_of_thread {call : Call} {o : ThreadRef} (h : call.thread? = some o) :
    call.atBody = false := by
  cases call <;> first | rfl | cases h

/-- How a call comes to be on a thread object: it runs no code of the client's, and no thread is
born in it. -/
theorem thread_arises (hallows : m.allows move = true) (hsound : m.Sound) {t : Tid} {call' : Call}
    {o : ThreadRef} (h : (m.apply move).call? t = some call') (ho : call'.thread? = some o) :
    m.call? t = some call' ∨ (move = .begin t call' ∧ call'.isFresh = true) ∨
      ∃ choice call, move = .advance t choice ∧ m.call? t = some call ∧
        call.step t choice m.store = .next (m.apply move).store call' := by
  cases hsound.arises hallows h (Call.not_body_of_thread ho) with
  | idle hcall => exact .inl hcall
  | begun hmove hfresh => exact .inr (.inl ⟨hmove, hfresh⟩)
  | @resumed e call hmove hcall hbody heq =>
    subst heq
    cases call <;> cases ho <;> cases hbody
  | @next choice call hmove hcall hstep => exact .inr (.inr ⟨choice, call, hmove, hcall, hstep⟩)
  | born heq =>
    subst heq
    cases ho

/-- A call that is on a thread object after a move was so before, or has just been begun. -/
theorem thread_cases (hallows : m.allows move = true) (hsound : m.Sound) {t : Tid} {call' : Call}
    {o : ThreadRef} (h : (m.apply move).call? t = some call') (ho : call'.thread? = some o) :
    (∃ call, m.call? t = some call ∧ call.thread? = some o) ∨ move = .begin t call' := by
  obtain hcall | ⟨hmove, -⟩ | ⟨choice, call, -, hcall, hstep⟩ := thread_arises hallows hsound h ho
  · exact .inl ⟨call', hcall, ho⟩
  · exact .inr hmove
  · exact .inl ⟨call, hcall, (Call.thread_of_step hstep).trans ho⟩

/-- No two calls are on one thread object, and an object that is not running, or is being joined,
has no handle. -/
structure Borrowed (m : Machine) : Prop where
  alone : ∀ o t u call call', m.call? t = some call → m.call? u = some call' →
    call.thread? = some o → call'.thread? = some o → t = u
  idle : ∀ o, (m.store.threads.get o).running = false → (m.store.threads.get o).handle = none
  joining : ∀ o t child, m.call? t = some (.join o (.waiting child)) →
    (m.store.threads.get o).handle = none

theorem borrowed_initial : initial.Borrowed where
  alone _ _ _ _ _ hcall := by cases hcall
  idle _ _ := rfl
  joining _ _ _ hcall := by cases hcall

/-- The move begins no call on a thread object that another call is on. -/
def Borrows (m : Machine) (move : Move) : Prop :=
  ∀ t call o, move = .begin t call → call.thread? = some o →
    ∀ u call', m.call? u = some call' → call'.thread? ≠ some o

/-- A join that goes on has taken the handle. -/
theorem handle_of_join {t : Tid} {choice : Choice} {call : Call} {s s' : Store} {o : ThreadRef}
    {child : Tid} (h : call.step t choice s = .next s' (.join o (.waiting child))) :
    (s'.threads.get o).handle = none := by
  have hkind := Call.origin_of_step h
  cases call <;> cases hkind
  rename_i p
  cases p with
  | entry =>
    simp only [Call.step, Call.lift, JoinPhase.step] at h
    rcases takeRunning_cases s o .join fun s child => .next s (JoinPhase.waiting child) with
      ⟨child', -, -, heq⟩ | ⟨-, heq⟩ <;> rw [heq] at h <;> cases h
    rw [Store.setThread, Table.get_set_self]
  | waiting child' =>
    simp only [Call.step, Call.lift, JoinPhase.step, JoinPhase.finish] at h
    (repeat' split at h) <;> cases h

/-- Every move keeps the handles in order. -/
theorem Borrowed.apply (h : m.Borrowed) (hallows : m.allows move = true) (hsound : m.Sound)
    (hborrows : m.Borrows move) : (m.apply move).Borrowed := by
  constructor
  case alone =>
    intro o t u call call' hcall hcall' ho ho'
    rcases thread_cases hallows hsound hcall ho with ⟨k, hk, hko⟩ | hbegin <;>
      rcases thread_cases hallows hsound hcall' ho' with ⟨k', hk', hko'⟩ | hbegin'
    · exact h.alone o t u k k' hk hk' hko hko'
    · exact absurd hko (hborrows u call' o hbegin' ho' t k hk)
    · exact absurd hko' (hborrows t call o hbegin ho u k' hk')
    · cases hbegin.symm.trans hbegin'
      rfl
  case idle =>
    intro o hidle
    cases m.threadEvent move o with
    | kept hsame =>
      rw [hsame] at hidle ⊢
      exact h.idle o hidle
    | new _ hnew =>
      rw [hnew]
      rfl
    | touched _ hcall htouches =>
      generalize (m.apply move).store.threads.get o = th' at htouches hidle ⊢
      cases htouches with
      | configured =>
        rw [Thread.configured_running] at hidle
        exact (Thread.configured_handle ..).trans (h.idle o hidle)
      | started => cases hidle
      | joined => exact h.joining o _ _ hcall
      | taken | refused | detached => rfl
  case joining =>
    intro o t child hcall
    obtain hbefore | ⟨-, hfresh⟩ | ⟨choice, call, -, -, hstep⟩ :=
      thread_arises hallows hsound hcall rfl
    · have hnone := h.joining o t child hbefore
      cases m.threadEvent move o with
      | kept hsame => rw [hsame, hnone]
      | new _ hnew =>
        rw [hnew]
        rfl
      | touched _ hcall' htouches =>
        generalize (m.apply move).store.threads.get o = th' at htouches ⊢
        cases htouches with
        | configured => exact (Thread.configured_handle ..).trans hnone
        -- the start would be a second call on the object
        | started =>
          obtain rfl := h.alone o t _ _ _ hbefore hcall' rfl rfl
          cases hbefore.symm.trans hcall'
        | joined => exact hnone
        | taken | refused | detached => rfl
    · cases hfresh
    · exact handle_of_join hstep

end Machine

/-- Nobody begins a call on a thread object while another call is on it. -/
def Run.Borrows (r : Run) : Prop := ∀ i, (r.state i).Borrows (r.move i)

theorem Run.Borrows.state {r : Run} (h : r.Borrows) (i : Nat) : (r.state i).Borrowed := by
  induction i with
  | zero => exact Machine.borrowed_initial
  | succ i ih => exact ih.apply (r.state_allows i) (r.state_sound i) (h i)

end Interlock
