import Interlock.Proofs.Refusal
import Interlock.Proofs.Thread.Entry

/-!
# The thread that an object has to join or detach

What a thread object shows of its thread stands in three fields that are written at different steps
of a call. Every move finds them in order, and leaves them so.

  * `Call.Works`: what a step of a call on a thread object can be;
  * `Run.Launches`, `Run.Joins`, `Run.Detaches`: a start succeeds, a join ends, a detach succeeds;
  * `Run.JoinsBlock`: a join waits until its thread has ended, which it does unless a thread joins
    itself (`Run.joinsBlock_iff`);
  * `Run.Charged`: the thread that an object has to join or detach, and `Run.Turn`: what a move
    makes of it and of the object (`Run.Charged.turn`).
-/

namespace Interlock

/-! ## Steps

The calls on a thread object are `start`, `join`, `detach` and the setters. `Call.Works` lists what
one step of such a call can be, with what it finds and what it leaves in the object; all later cases
are taken from it. -/

/-- What a join tells its caller of the end of the thread. -/
def Ending.notice : Ending → Notice
  | .returned => .replied .nothing
  | .panicked why => .panicked why

/-- The last step of a join. -/
def Ending.pass (s : Store) : Ending → Progress Call Reply
  | .returned => .done s .nothing
  | .panicked why => .fault s why

/-- What a step of a call of thread `t` on thread object `o` can be. -/
inductive Call.Works (t : Tid) (choice : Choice) (s : Store) (o : ThreadRef) :
    Call → Progress Call Reply → Prop
  | sets {s' : Store} {setting : ThreadSetting}
    (hobject : s'.threads.get o = (s.threads.get o).configured setting) :
    Works t choice s o (.configure o setting) (.done s' .nothing)
  | draws {s' : Store} {id : ThreadId} (hidle : (s.threads.get o).running = false)
    (hsame : s'.threads = s.threads) :
    Works t choice s o (.start o .entry) (.next s' (.start o (.spawn id)))
  | spawns {s' : Store} {id : ThreadId} {child : Tid}
    (hnamed : (s.threads.get o).name.filter ThreadName.hasNul = none)
    (hgranted : choice.refuse = false)
    (hsame : s'.threads = s.threads) :
    Works t choice s o (.start o (.spawn id)) (.next s' (.start o (.record id child)))
  | starts {s' : Store} {id : ThreadId} {child : Tid}
    (hobject : s'.threads.get o = (s.threads.get o).started id child) :
    Works t choice s o (.start o (.record id child)) (.done s' (.started (some child)))
  /-- The operating system refuses the thread. -/
  | denied {s' : Store} {id : ThreadId}
    (hdenied : choice.refuse = true) (hsame : s'.threads = s.threads) :
    Works t choice s o (.start o (.spawn id)) (.done s' (.started none))
  /-- The object is running, or the platform refuses its name. -/
  | fails {s' : Store} {p : StartPhase} {why : Panic}
    (hfails : p = .entry ∧ (s.threads.get o).running = true ∨
      ∃ id, p = .spawn id ∧ (s.threads.get o).name.filter ThreadName.hasNul ≠ none)
    (hsame : s'.threads = s.threads) :
    Works t choice s o (.start o p) (.fault s' why)
  | takes {s' : Store} {child : Tid} (hheld : (s.threads.get o).isHeld = true)
    (hhandle : (s.threads.get o).handle = some child)
    (hobject : s'.threads.get o = { s.threads.get o with handle := none }) :
    Works t choice s o (.join o .entry) (.next s' (.join o (.waiting child)))
  | waits {child : Tid} (hlives : (s.osThreads.get child).ending = none) :
    Works t choice s o (.join o (.waiting child)) .blocked
  | itself : Works t choice s o (.join o (.waiting t)) (.fault s .joinedItself)
  | joins {s' : Store} {child : Tid} {ending : Ending}
    (hending : (s.osThreads.get child).ending = some ending)
    (hobject : s'.threads.get o = (s.threads.get o).released .joined) :
    Works t choice s o (.join o (.waiting child)) (ending.pass s')
  | detaches {s' : Store} {child : Tid} (hheld : (s.threads.get o).isHeld = true)
    (hhandle : (s.threads.get o).handle = some child)
    (hobject : s'.threads.get o = { s.threads.get o with handle := none }.released .detached) :
    Works t choice s o (.detach o) (.done s' .nothing)
  /-- There is nothing to join or detach. -/
  | refused {call : Call} {s' : Store} {why : Panic}
    (hcall : call = .join o .entry ∨ call = .detach o)
    (hheld : (s.threads.get o).isHeld = false)
    (hobject : s'.threads.get o = { s.threads.get o with handle := none }) :
    Works t choice s o call (.fault s' why)

/-- A step of a call on an object is one of these. -/
theorem Call.works {t : Tid} {choice : Choice} {s : Store} {o : ThreadRef} {call : Call}
    (h : call.thread? = some o) : Works t choice s o call (call.step t choice s) := by
  cases call with
  | configure r setting =>
    cases h
    obtain ⟨log, hstore⟩ := s.exists_configureThread_eq o setting
    simp only [step, single, configureStep, hstore]
    exact .sets (Table.get_set_self ..)
  | start r p =>
    cases h
    cases p with
    | entry =>
      simp only [step, lift, StartPhase.step]
      split
      · exact .fails (.inl ⟨rfl, ‹_›⟩) rfl
      · exact .draws (Bool.eq_false_iff.2 ‹_›) rfl
    | spawn id =>
      simp only [step, lift, StartPhase.step]
      split
      · rename_i name hname
        exact .fails (.inr ⟨id, rfl, by simp [hname]⟩) rfl
      · rename_i hnamed
        split
        · exact .denied ‹_› rfl
        · exact .spawns hnamed (Bool.eq_false_iff.2 ‹_›) rfl
    | record id child => exact .starts (Table.get_set_self ..)
  | join r p =>
    cases h
    cases p with
    | entry =>
      simp only [step, lift, JoinPhase.step]
      -- joining and detaching take the thread in the same way, and each is refused without one
      rcases takeRunning_cases s o .join fun s child => .next s (JoinPhase.waiting child) with
        ⟨child, hheld, hhandle, heq⟩ | ⟨hheld, heq⟩ <;> rw [heq]
      · exact .takes hheld hhandle (Table.get_set_self ..)
      · exact .refused (.inl rfl) hheld (Table.get_set_self ..)
    | waiting child =>
      simp only [step, lift, JoinPhase.step]
      split
      · subst child
        exact .itself
      · split
        · rename_i ending hending
          cases ending with
          | returned =>
            exact show Works t choice s o _ (Ending.returned.pass _) from
              .joins hending (Table.get_set_self ..)
          | panicked why =>
            exact show Works t choice s o _ ((Ending.panicked why).pass _) from
              .joins hending (Table.get_set_self ..)
        · exact .waits ‹_›
  | detach r =>
    cases h
    simp only [step, single, detachStep]
    rcases takeRunning_cases s o .detach _ with
      ⟨child, hheld, hhandle, heq⟩ | ⟨hheld, heq⟩ <;> rw [heq]
    · refine .detaches hheld hhandle ((Table.get_set_self ..).trans ?_)
      simp [Store.setThread]
    · exact .refused (.inr rfl) hheld (Table.get_set_self ..)
  | _ => cases h

namespace Run

variable {r : Run} {o o' : ThreadRef} {i j k : Nat} {t u child child' : Tid} {choice : Choice}
  {call : Call} {outer : List Call} {notice notice' : Notice} {x : Option Tid} {id : ThreadId}

/-! ## Starts and their ends

What a caller sees of an object is which starts succeed, and which joins and detaches close them. A
join that finds nothing to join closes nothing, and is not among the joins that end. -/

def object (r : Run) (o : ThreadRef) (i : Nat) : Thread := (r.state i).store.threads.get o

/-- A start of object `o` succeeds in move `i`, with thread `child`. -/
def Launches (r : Run) (o : ThreadRef) (child : Tid) (i : Nat) : Prop :=
  ∃ t p, r.Performs t i (.start o p) (.replied (.started (some child)))

/-- A join of object `o`, which has waited for thread `child`, ends in move `i`. -/
def Joins (r : Run) (o : ThreadRef) (child : Tid) (notice : Notice) (i : Nat) : Prop :=
  notice ≠ .blocked ∧ ∃ t, r.Performs t i (.join o (.waiting child)) notice

/-- A detach of object `o` succeeds in move `i`. -/
def Detaches (r : Run) (o : ThreadRef) (i : Nat) : Prop :=
  ∃ t, r.Performs t i (.detach o) (.replied .nothing)

inductive Closes (r : Run) (o : ThreadRef) (i : Nat) : Prop
  | join {child : Tid} {notice : Notice} (h : r.Joins o child notice i)
  | detach (h : r.Detaches o i)

/-- In move `i` no start of object `o` succeeds, and none is closed. -/
structure Spares (r : Run) (o : ThreadRef) (i : Nat) : Prop where
  launch : ∀ child, ¬ r.Launches o child i
  close : ¬ r.Closes o i

/-- A join goes on only when its thread has ended. -/
def JoinsBlock (r : Run) (o : ThreadRef) : Prop :=
  ∀ child notice i, r.Joins o child notice i → (r.state i).ending child ≠ none

/-- No call on object `o` is in progress. -/
def Free (r : Run) (o : ThreadRef) (i : Nat) : Prop :=
  ∀ t call, (r.state i).call? t = some call → call.thread? ≠ some o

/-- The call that a thread is in takes one of these steps. -/
theorem exists_works (hcall : (r.state i).call? t = some call) (ho : call.thread? = some o)
    (choice : Choice) : ∃ outer p, (r.state i).calls.get t = call :: outer ∧
      call.step t choice (r.state i).store = p ∧
      Call.Works t choice (r.state i).store o call p := by
  obtain ⟨outer, hget⟩ := List.head?_eq_some_iff.1 hcall
  exact ⟨outer, _, hget, rfl, Call.works ho⟩

/-- A join that goes on before its thread has ended is one of that thread itself. -/
theorem Joins.ended_or_itself (h : r.Joins o child notice i) : (r.state i).ending child ≠ none ∨
    r.Performs child i (.join o (.waiting child)) (.panicked .joinedItself) := by
  obtain ⟨hmoves, t, choice, hmove, hcall, hnotice⟩ := h
  obtain ⟨outer, p, hget, hstep, hworks⟩ := exists_works hcall rfl choice
  cases hworks with
  | waits => exact absurd (hnotice.symm.trans (congrArg Prod.snd
      (Machine.advance_of_blocked hget hstep))) hmoves
  | itself => exact .inr ⟨choice, hmove, hcall, congrArg Prod.snd
      (Machine.advance_of_fault hget hstep)⟩
  | joins hending => exact .inl (by simp [Machine.ending, hending])
  | refused hcall' => simp at hcall'

/-- Joins block as they should where no thread joins itself. -/
theorem joinsBlock_iff : r.JoinsBlock o ↔
    ∀ t i, ¬ r.Performs t i (.join o (.waiting t)) (.panicked .joinedItself) := by
  constructor
  · intro hblocks t i hperforms
    refine hblocks t _ i ⟨by simp, t, hperforms⟩ ((r.state_lively i).calling t ?_)
    obtain ⟨choice, -, hcall, -⟩ := hperforms
    exact List.ne_nil_of_mem (Machine.mem_of_call? hcall)
  · intro hnone child notice i hjoins
    exact hjoins.ended_or_itself.resolve_right (hnone child i)

theorem Closes.performs (h : r.Closes o i) :
    ∃ t call notice, r.Performs t i call notice ∧ ((∃ child, call = .join o (.waiting child)) ∨
      call = .detach o ∧ notice = .replied .nothing) := by
  cases h with
  | join h =>
    obtain ⟨-, t, hperforms⟩ := h
    exact ⟨t, _, _, hperforms, .inl ⟨_, rfl⟩⟩
  | detach h =>
    obtain ⟨t, hperforms⟩ := h
    exact ⟨t, _, _, hperforms, .inr ⟨rfl, rfl⟩⟩

/-- A move that is a start closes nothing. -/
theorem Launches.not_closes (h : r.Launches o child i) : ¬ r.Closes o i := by
  intro hcloses
  obtain ⟨t, p, hperforms⟩ := h
  obtain ⟨u, call, notice, hperforms', ⟨child', rfl⟩ | ⟨rfl, -⟩⟩ := hcloses.performs <;>
    cases (hperforms.unique hperforms').2.1

theorem Launches.unique (h : r.Launches o child i) (h' : r.Launches o child' i) :
    child = child' := by
  obtain ⟨t, p, hperforms⟩ := h
  obtain ⟨u, q, hperforms'⟩ := h'
  cases (hperforms.unique hperforms').2.2
  rfl

/-- A move that is no step of a call on the object spares it. -/
theorem spares_of_not (h : ∀ t choice call, r.move i = .advance t choice →
    (r.state i).call? t = some call → call.thread? ≠ some o) : r.Spares o i := by
  constructor
  · rintro child ⟨t, p, choice, hmove, hcall, -⟩
    exact h t choice _ hmove hcall rfl
  · intro hcloses
    obtain ⟨t, call, notice, ⟨choice, hmove, hcall, -⟩, ⟨child, rfl⟩ | ⟨rfl, -⟩⟩ :=
      hcloses.performs <;> exact h t choice _ hmove hcall rfl

/-- A step spares the object if it is not one of those that end a start, a join or a detach as they
should. -/
theorem Performs.spares (h : r.Performs t i call notice)
    (hstart : ∀ p child, call = .start o p → notice ≠ .replied (.started (some child)))
    (hjoin : ∀ child, call = .join o (.waiting child) → notice = .blocked)
    (hdetach : call = .detach o → notice ≠ .replied .nothing) : r.Spares o i := by
  constructor
  · rintro child ⟨u, p, hperforms⟩
    obtain ⟨-, rfl, rfl⟩ := h.unique hperforms
    exact hstart p child rfl rfl
  · intro hcloses
    cases hcloses with
    | join hjoins =>
      obtain ⟨hmoves, u, hperforms⟩ := hjoins
      obtain ⟨-, rfl, rfl⟩ := h.unique hperforms
      exact hmoves (hjoin _ rfl)
    | detach hdetaches =>
      obtain ⟨u, hperforms⟩ := hdetaches
      obtain ⟨-, rfl, rfl⟩ := h.unique hperforms
      exact hdetach rfl rfl

/-! ## The thread that an object has to join or detach

A join takes the handle of a running object before it waits, so the handle alone does not say which
thread the object has. The state, the handle and the calls in progress together do, and every move
takes this on to the next moment. -/

/-- Thread `x` is the one that object `o` has to join or detach. A join has taken the handle while
it waits. -/
structure Charged (r : Run) (o : ThreadRef) (i : Nat) (x : Option Tid) : Prop where
  running : (r.object o i).running = x.isSome
  held : ∀ child, x = some child → (r.object o i).handle = some child ∨
    ∃ t, (r.state i).call? t = some (.join o (.waiting child))
  waiting : ∀ t child, (r.state i).call? t = some (.join o (.waiting child)) → x = some child
  /-- A start that has found the object not running goes on to find it so. -/
  starting : ∀ t p, (r.state i).call? t = some (.start o p) → p ≠ .entry → x = none
  born : x ≠ none → o < (r.state i).store.nextHandle

/-- What move `i` makes of object `o` and of the thread that it has to join or detach. -/
inductive Turn (r : Run) (o : ThreadRef) (i : Nat) : Option Tid → Option Tid → Thread → Prop
  | kept {x : Option Tid} (hspares : r.Spares o i) : Turn r o i x x (r.object o i)
  /-- The object is created. -/
  | new {name : Option String} {stackSize : Option Nat}
    (hborn : (r.state i).store.nextHandle ≤ o) (hspares : r.Spares o i) :
    Turn r o i none none (.new name stackSize)
  /-- The object is told what to ask for at its next start. -/
  | sets {x : Option Tid} {setting : ThreadSetting} (hspares : r.Spares o i) :
    Turn r o i x x ((r.object o i).configured setting)
  /-- A join takes the handle, to wait for the thread. -/
  | takes {child : Tid} (hspares : r.Spares o i) (hhandle : (r.object o i).handle = some child) :
    Turn r o i (some child) (some child) { r.object o i with handle := none }
  | starts {child : Tid} {id : ThreadId} (hlaunches : r.Launches o child i) (hid : id ≠ .nobody) :
    Turn r o i none (some child) ((r.object o i).started id child)
  | joins {child : Tid} {ending : Ending} (hjoins : r.Joins o child ending.notice i)
    (hending : (r.state i).ending child = some ending) (hhandle : (r.object o i).handle = none) :
    Turn r o i (some child) none ((r.object o i).released .joined)
  | detaches {child : Tid} (hdetaches : r.Detaches o i)
    (hhandle : (r.object o i).handle = some child) :
    Turn r o i (some child) none ({ r.object o i with handle := none }.released .detached)

namespace Charged

theorem of_free (hfree : r.Free o i) (hrunning : (r.object o i).running = x.isSome)
    (hhandle : (r.object o i).handle = x) (hborn : o < (r.state i).store.nextHandle) :
    r.Charged o i x where
  running := hrunning
  held _ heq := .inl (hhandle.trans heq)
  waiting t _ hcall := absurd rfl (hfree t _ hcall)
  starting t _ hcall := absurd rfl (hfree t _ hcall)
  born _ := hborn

/-- The object has the handle of its thread unless a join has taken it. -/
theorem handle_eq (h : r.Charged o i x) (hborrowed : (r.state i).Borrowed)
    (hnone : ∀ t child, (r.state i).call? t ≠ some (.join o (.waiting child))) :
    (r.object o i).handle = x := by
  cases hx : x with
  | none => exact hborrowed.idle o (by have := h.running; rwa [hx] at this)
  | some child =>
    rcases h.held child hx with hhandle | ⟨t, hcall⟩
    · exact hhandle
    · exact absurd hcall (hnone t child)

/-- An object is running where it can be joined or detached, unless a join has taken the handle. -/
theorem isHeld_eq (h : r.Charged o i x) (hborrowed : (r.state i).Borrowed)
    (hnone : ∀ t child, (r.state i).call? t ≠ some (.join o (.waiting child))) :
    (r.object o i).isHeld = (r.object o i).running := by
  rw [Thread.isHeld, h.handle_eq hborrowed hnone, ← h.running, Bool.and_self]

/-! ### Moves that work on another object, or on none

Such a move spares the object, unless it creates it. -/

/-- A move that is no step of a call on the object leaves it its thread. -/
theorem aside (h : r.Charged o i x) (hnot : ∀ t choice call, r.move i = .advance t choice →
    (r.state i).call? t = some call → call.thread? ≠ some o) :
    r.Turn o i x x (r.object o (i + 1)) ∧ r.Charged o (i + 1) x := by
  have hspares := spares_of_not hnot
  have hcalls (t : Tid) (call : Call) (hcall : (r.state (i + 1)).call? t = some call)
      (ho : call.thread? = some o) : (r.state i).call? t = some call ∨ call.isFresh = true := by
    obtain hcall | ⟨-, hfresh⟩ | ⟨choice, call', hmove, hcall', hstep⟩ :=
      Machine.thread_arises (r.state_allows i) (r.state_sound i) hcall ho
    · exact .inl hcall
    · exact .inr hfresh
    · exact absurd ((Call.thread_of_step hstep).trans ho) (hnot t choice call' hmove hcall')
  have hwaiting (t : Tid) (child : Tid)
      (hcall : (r.state (i + 1)).call? t = some (.join o (.waiting child))) : x = some child := by
    rcases hcalls t _ hcall rfl with hbefore | hfresh
    · exact h.waiting t child hbefore
    · cases hfresh
  have hstarting (t : Tid) (p : StartPhase)
      (hcall : (r.state (i + 1)).call? t = some (.start o p)) (hp : p ≠ .entry) : x = none := by
    rcases hcalls t _ hcall rfl with hbefore | hfresh
    · exact h.starting t p hbefore hp
    · exact absurd (by simpa [Call.isFresh] using hfresh) hp
  cases (r.state i).threadEvent (r.move i) o with
  | kept hsame =>
    have hobject : r.object o (i + 1) = r.object o i := hsame
    rw [hobject]
    refine ⟨.kept hspares, hobject ▸ h.running, ?_, hwaiting, hstarting, ?_⟩
    · intro child hx
      refine (h.held child hx).imp (hobject ▸ ·) ?_
      rintro ⟨t, hcall⟩
      obtain ⟨outer, hget⟩ := List.head?_eq_some_iff.1 hcall
      exact ⟨t, Machine.call?_of_get ((r.state_change i).calls_kept (r.state_sound i) hget rfl
        fun choice hmove => hnot t choice _ hmove hcall rfl)⟩
    · exact fun hx => Nat.lt_of_lt_of_le (h.born hx) (r.state_change i).handles.1
  | @new name stackSize hborn hnew =>
    have hobject : r.object o (i + 1) = .new name stackSize := hnew
    -- a fresh handle cannot have had a thread
    obtain rfl : x = none := by
      by_contra hx
      exact absurd (h.born hx) (Nat.not_lt.2 hborn)
    rw [hobject]
    refine ⟨.new hborn hspares, by rw [hobject]; rfl, ?_, hwaiting, hstarting, ?_⟩
    · rintro child ⟨⟩
    · exact fun hx => absurd rfl hx
  | touched hmove hcall htouches =>
    refine absurd ?_ (hnot _ _ _ hmove hcall)
    generalize ((r.state i).apply (r.move i)).store.threads.get o = th at htouches
    cases htouches <;> rfl

end Charged

/-! ### Moves that work on the object

A call has its object to itself, so the step is all that happens to the object and to the calls on
it. One lemma for each kind of step says what the object and its thread are afterwards, and
`Charged.work` puts them together. -/

/-- An object that a call works on has been created. -/
theorem born_of_call (hcall : (r.state i).call? t = some call) (ho : call.thread? = some o) :
    o < (r.state i).store.nextHandle := by
  refine Call.handle_lt_of_knows ((r.state_sound i).known t call (Machine.mem_of_call? hcall))
    (o := .thread o) ?_
  cases call <;> cases ho <;> exact List.mem_singleton.2 rfl

section

variable (hborrows : r.Borrows) (hmove : r.move i = .advance t choice)
  (hget : (r.state i).calls.get t = call :: outer) (ho : call.thread? = some o)

include hborrows hmove hget ho

/-- The step of a call on an object is the only thing that happens to it. -/
theorem sole_of_step {call' : Call} (hcall' : (r.state (i + 1)).call? u = some call')
    (ho' : call'.thread? = some o) : u = t := by
  rcases Machine.thread_cases (r.state_allows i) (r.state_sound i) hcall' ho' with
    ⟨k, hk, hko⟩ | hbegin
  · exact (hborrows.state i).alone o u t k call hk (Machine.call?_of_get hget) hko ho
  · cases hmove.symm.trans hbegin

/-- A call on an object goes on. -/
theorem goes_of_next {s' : Store} {call' : Call}
    (hstep : call.step t choice (r.state i).store = .next s' call') :
    r.Performs t i call .working ∧ r.object o (i + 1) = s'.threads.get o ∧
      (r.state (i + 1)).call? t = some call' ∧
      ∀ u k, (r.state (i + 1)).call? u = some k → k.thread? = some o → k = call' := by
  obtain ⟨hcall', hstore⟩ := (r.state_sound i).call?_of_next hget hstep
  have hafter := state_of_advance hmove
  rw [← hafter] at hcall' hstore
  refine ⟨⟨choice, hmove, Machine.call?_of_get hget, ?_⟩, congrArg (·.threads.get o) hstore,
    hcall', ?_⟩
  · have hbody : call'.atBody = false :=
      Machine.Call.not_body_of_thread ((Call.thread_of_step hstep).symm.trans ho)
    simp [Machine.advance, hget, hstep, hbody]
  · intro u k hk hko
    obtain rfl := sole_of_step hborrows hmove hget ho hk hko
    exact Option.some.inj (hk.symm.trans hcall')

/-- A call on an object ends, and nobody is on the object any more. -/
theorem free_of_last {s' : Store} {notice : Notice}
    (hadvance : (r.state i).advance t choice = (⟨s', (r.state i).calls.set t outer⟩, notice)) :
    r.Performs t i call notice ∧ r.object o (i + 1) = s'.threads.get o ∧ r.Free o (i + 1) := by
  have hafter : r.state (i + 1) = ⟨s', (r.state i).calls.set t outer⟩ := by
    rw [state_of_advance hmove, hadvance]
  refine ⟨⟨choice, hmove, Machine.call?_of_get hget, by rw [hadvance]⟩, ?_, ?_⟩
  · rw [object, hafter]
  · intro u k hk hko
    obtain rfl := sole_of_step hborrows hmove hget ho hk hko
    rw [hafter, Machine.call?, Table.get_set_self] at hk
    -- the calls below run code of the client's
    have hbody := (r.state_sound i).waiting u call outer hget k (List.mem_of_head? hk)
    simp [Machine.Call.not_body_of_thread hko] at hbody

/-- No join waits on the object of another call. -/
theorem not_waiting (hcall : ∀ child, call ≠ .join o (.waiting child)) (u child : Tid) :
    (r.state i).call? u ≠ some (.join o (.waiting child)) := by
  intro hwaits
  have hcall' := Machine.call?_of_get hget
  obtain rfl := (hborrows.state i).alone o u t _ _ hwaits hcall' rfl ho
  exact hcall child (Option.some.inj (hcall'.symm.trans hwaits))

/-- A call that ends, and leaves the state and the handle of its object, leaves it its thread. -/
theorem Charged.of_same (h : r.Charged o i x) (hcall : ∀ child, call ≠ .join o (.waiting child))
    (hfree : r.Free o (i + 1)) (hrunning : (r.object o (i + 1)).running = (r.object o i).running)
    (hhandle : (r.object o (i + 1)).handle = (r.object o i).handle) : r.Charged o (i + 1) x := by
  have hborn := Nat.lt_of_lt_of_le (born_of_call (Machine.call?_of_get hget) ho)
    (r.state_change i).handles.1
  exact .of_free hfree (hrunning.trans h.running) (hhandle.trans
    (h.handle_eq (hborrows.state i) (not_waiting hborrows hmove hget ho hcall))) hborn

/-- Unless a join has taken it, the handle is that of the thread that the object has. -/
theorem Charged.eq_of_handle (h : r.Charged o i x)
    (hcall : ∀ child, call ≠ .join o (.waiting child))
    (hhandle : (r.object o i).handle = some child) : x = some child :=
  (h.handle_eq (hborrows.state i) (not_waiting hborrows hmove hget ho hcall)).symm.trans hhandle

/-- A call that panics, or starts nothing, leaves its object as it was. -/
theorem Charged.unmoved {s' : Store} {notice : Notice} (h : r.Charged o i x)
    (hadvance : (r.state i).advance t choice = (⟨s', (r.state i).calls.set t outer⟩, notice))
    (hsame : s'.threads.get o = r.object o i) (hcall : ∀ child, call ≠ .join o (.waiting child))
    (hstart : ∀ child, notice ≠ .replied (.started (some child)))
    (hdetach : notice ≠ .replied .nothing) :
    r.Turn o i x x (r.object o (i + 1)) ∧ r.Charged o (i + 1) x := by
  obtain ⟨hperforms, hobject, hfree⟩ := free_of_last hborrows hmove hget ho hadvance
  have hkept := hobject.trans hsame
  exact ⟨hkept ▸ .kept (hperforms.spares (fun _ child _ => hstart child)
      (fun child heq => absurd heq (hcall child)) fun _ => hdetach),
    h.of_same hborrows hmove hget ho hcall hfree (congrArg Thread.running hkept)
      (congrArg Thread.handle hkept)⟩

/-- A start that goes on leaves the object without a thread. -/
theorem Charged.of_starting (h : r.Charged o i none) {s' : Store} {p : StartPhase}
    (hstep : call.step t choice (r.state i).store = .next s' (.start o p))
    (hsame : s'.threads = (r.state i).store.threads) :
    r.Turn o i none none (r.object o (i + 1)) ∧ r.Charged o (i + 1) none := by
  obtain ⟨hperforms, hobject, -, hsole⟩ := goes_of_next hborrows hmove hget ho hstep
  rw [hsame] at hobject
  have hkind : call.origin = .starting o := (Call.origin_of_step hstep).symm
  refine ⟨hobject ▸ .kept (hperforms.spares (by simp) ?_ (by simp)), ?_⟩
  · rintro child rfl
    cases hkind
  · refine ⟨by rw [hobject]; exact h.running, by simp, ?_, by simp, by simp⟩
    intro u child hwaits
    cases hsole u _ hwaits rfl

end

section

variable (hborrows : r.Borrows) (hmove : r.move i = .advance t choice) {s' : Store}

include hborrows hmove

/-- A start that succeeds gives the object its thread. -/
theorem Charged.launch (h : r.Charged o i x)
    (hget : (r.state i).calls.get t = .start o (.record id child) :: outer)
    (hstep : (Call.start o (.record id child)).step t choice (r.state i).store =
      .done s' (.started (some child)))
    (hobject : s'.threads.get o = (r.object o i).started id child) :
    r.Turn o i x (some child) (r.object o (i + 1)) ∧ r.Charged o (i + 1) (some child) := by
  have hcall := Machine.call?_of_get hget
  obtain ⟨hperforms, hafter, hfree⟩ :=
    free_of_last hborrows hmove hget (o := o) rfl (Machine.advance_of_done hget hstep)
  obtain rfl := h.starting t _ hcall (by simp)
  rw [hobject] at hafter
  refine ⟨hafter ▸ .starts ⟨t, _, hperforms⟩ ((r.state_named i).record t o id child hcall).1, ?_⟩
  exact .of_free hfree (by rw [hafter]; rfl) (by rw [hafter]; rfl)
    (Nat.lt_of_lt_of_le (born_of_call hcall rfl) (r.state_change i).handles.1)

/-- A join that takes the handle goes on to wait for the thread that the object has. -/
theorem Charged.take (h : r.Charged o i x)
    (hget : (r.state i).calls.get t = .join o .entry :: outer)
    (hstep : (Call.join o .entry).step t choice (r.state i).store =
      .next s' (.join o (.waiting child)))
    (hhandle : (r.object o i).handle = some child)
    (hobject : s'.threads.get o = { r.object o i with handle := none }) :
    r.Turn o i x x (r.object o (i + 1)) ∧ r.Charged o (i + 1) x := by
  obtain ⟨hperforms, hafter, hcall', hsole⟩ :=
    goes_of_next hborrows hmove hget (o := o) rfl hstep
  obtain rfl := h.eq_of_handle hborrows hmove hget rfl (by simp) hhandle
  rw [hobject] at hafter
  have hborn := Nat.lt_of_lt_of_le (born_of_call (o := o) (Machine.call?_of_get hget) rfl)
    (r.state_change i).handles.1
  refine ⟨hafter ▸ .takes (hperforms.spares (by simp) (by simp) (by simp)) hhandle,
    by rw [hafter]; exact h.running, ?_, ?_, ?_, fun _ => hborn⟩
  · rintro child' ⟨⟩
    exact .inr ⟨t, hcall'⟩
  · intro u child' hwaits
    cases hsole u _ hwaits rfl
    rfl
  · intro u p hstarts
    cases hsole u _ hstarts rfl

/-- A join that ends leaves the object without a thread. -/
theorem Charged.join {ending : Ending} (h : r.Charged o i x)
    (hget : (r.state i).calls.get t = .join o (.waiting child) :: outer)
    (hstep : (Call.join o (.waiting child)).step t choice (r.state i).store = ending.pass s')
    (hending : (r.state i).ending child = some ending)
    (hobject : s'.threads.get o = (r.object o i).released .joined) :
    r.Turn o i x none (r.object o (i + 1)) ∧ r.Charged o (i + 1) none := by
  have hcall := Machine.call?_of_get hget
  obtain rfl := h.waiting t child hcall
  have hadvance : (r.state i).advance t choice =
      (⟨s', (r.state i).calls.set t outer⟩, ending.notice) := by
    cases ending with
    | returned => exact Machine.advance_of_done hget hstep
    | panicked why => exact Machine.advance_of_fault hget hstep
  obtain ⟨hperforms, hafter, hfree⟩ := free_of_last hborrows hmove hget (o := o) rfl hadvance
  have hhandle := (hborrows.state i).joining o t child hcall
  rw [hobject] at hafter
  refine ⟨hafter ▸ .joins ⟨by cases ending <;> simp [Ending.notice], t, hperforms⟩ hending hhandle,
    ?_⟩
  exact .of_free hfree (by rw [hafter]; rfl) (by rw [hafter]; exact hhandle)
    (Nat.lt_of_lt_of_le (born_of_call hcall rfl) (r.state_change i).handles.1)

/-- So does a detach. -/
theorem Charged.detach (h : r.Charged o i x)
    (hget : (r.state i).calls.get t = .detach o :: outer)
    (hstep : (Call.detach o).step t choice (r.state i).store = .done s' .nothing)
    (hhandle : (r.object o i).handle = some child)
    (hobject : s'.threads.get o = { r.object o i with handle := none }.released .detached) :
    r.Turn o i x none (r.object o (i + 1)) ∧ r.Charged o (i + 1) none := by
  obtain ⟨hperforms, hafter, hfree⟩ :=
    free_of_last hborrows hmove hget (o := o) rfl (Machine.advance_of_done hget hstep)
  obtain rfl := h.eq_of_handle hborrows hmove hget rfl (by simp) hhandle
  rw [hobject] at hafter
  refine ⟨hafter ▸ .detaches ⟨t, hperforms⟩ hhandle, ?_⟩
  exact .of_free hfree (by rw [hafter]; rfl) (by rw [hafter]; rfl)
    (Nat.lt_of_lt_of_le (born_of_call (o := o) (Machine.call?_of_get hget) rfl)
      (r.state_change i).handles.1)

end

/-- A join that cannot go on yet changes nothing. -/
theorem Charged.blocked (h : r.Charged o i x) (hmove : r.move i = .advance t choice)
    (hget : (r.state i).calls.get t = .join o (.waiting child) :: outer)
    (hstep : (Call.join o (.waiting child)).step t choice (r.state i).store = .blocked) :
    r.Turn o i x x (r.object o (i + 1)) ∧ r.Charged o (i + 1) x := by
  have hcall := Machine.call?_of_get hget
  have hadvance := Machine.advance_of_blocked hget hstep
  have hsame : r.state (i + 1) = r.state i := by
    rw [state_of_advance hmove, hadvance]
  have hobject : r.object o (i + 1) = r.object o i := by rw [object, hsame, object]
  have hperforms : r.Performs t i _ .blocked := ⟨choice, hmove, hcall, by rw [hadvance]⟩
  have hborn := Nat.lt_of_lt_of_le (born_of_call (o := o) hcall rfl) (r.state_change i).handles.1
  exact ⟨hobject ▸ .kept (hperforms.spares (by simp) (by simp) (by simp)), hobject ▸ h.running,
    hsame ▸ hobject ▸ h.held, hsame ▸ h.waiting, hsame ▸ h.starting, fun _ => hborn⟩

/-- What a step of a call on an object makes of it. -/
theorem Charged.work (h : r.Charged o i x) (hborrows : r.Borrows) (hblocks : r.JoinsBlock o)
    (hmove : r.move i = .advance t choice) (hcall : (r.state i).call? t = some call)
    (ho : call.thread? = some o) :
    ∃ x', r.Turn o i x x' (r.object o (i + 1)) ∧ r.Charged o (i + 1) x' := by
  obtain ⟨outer, p, hget, hstep, hworks⟩ := exists_works hcall ho choice
  cases hworks with
  | @sets s' setting hobject' =>
    obtain ⟨hperforms, hobject, hfree⟩ :=
      free_of_last hborrows hmove hget ho (Machine.advance_of_done hget hstep)
    rw [hobject'] at hobject
    exact ⟨x, hobject ▸ .sets (hperforms.spares (by simp) (by simp) (by simp)),
      h.of_same hborrows hmove hget ho (by simp) hfree (hobject ▸ Thread.configured_running ..)
        (hobject ▸ Thread.configured_handle ..)⟩
  | draws hidle hsame =>
    obtain rfl : x = none := by
      simpa [show (r.object o i).running = false from hidle] using h.running.symm
    exact ⟨none, h.of_starting hborrows hmove hget ho hstep hsame⟩
  | spawns _ _ hsame =>
    obtain rfl := h.starting t _ hcall (by simp)
    exact ⟨none, h.of_starting hborrows hmove hget ho hstep hsame⟩
  | starts hobject => exact ⟨_, h.launch hborrows hmove hget hstep hobject⟩
  | denied _ hsame =>
    exact ⟨x, h.unmoved hborrows hmove hget ho (Machine.advance_of_done hget hstep)
      (by rw [hsame, object]) (by simp) (by simp) (by simp)⟩
  | fails _ hsame =>
    exact ⟨x, h.unmoved hborrows hmove hget ho (Machine.advance_of_fault hget hstep)
      (by rw [hsame, object]) (by simp) (by simp) (by simp)⟩
  | takes _ hhandle hobject => exact ⟨x, h.take hborrows hmove hget hstep hhandle hobject⟩
  | waits => exact ⟨x, h.blocked hmove hget hstep⟩
  | itself =>
    obtain ⟨hperforms, -⟩ :=
      free_of_last hborrows hmove hget ho (Machine.advance_of_fault hget hstep)
    exact absurd hperforms (joinsBlock_iff.1 hblocks t i)
  | joins hending hobject => exact ⟨none, h.join hborrows hmove hget hstep hending hobject⟩
  | detaches _ hhandle hobject =>
    exact ⟨none, h.detach hborrows hmove hget hstep hhandle hobject⟩
  | refused hrefused hheld hobject =>
    -- there was no handle to take
    have hsame : { r.object o i with handle := none } = r.object o i := by
      rw [← handle_of_not_held hborrows hheld]
      rfl
    refine ⟨x, h.unmoved hborrows hmove hget ho (Machine.advance_of_fault hget hstep)
      (hobject.trans hsame) ?_ (by simp) (by simp)⟩
    rintro child rfl
    simp at hrefused

/-- What a move makes of an object. -/
theorem Charged.turn (h : r.Charged o i x) (hborrows : r.Borrows) (hblocks : r.JoinsBlock o) :
    ∃ x', r.Turn o i x x' (r.object o (i + 1)) ∧ r.Charged o (i + 1) x' := by
  by_cases hwork : ∃ t choice call, r.move i = .advance t choice ∧
      (r.state i).call? t = some call ∧ call.thread? = some o
  · obtain ⟨t, choice, call, hmove, hcall, ho⟩ := hwork
    exact h.work hborrows hblocks hmove hcall ho
  · exact ⟨x, h.aside fun t choice call hmove hcall ho => hwork ⟨t, choice, call, hmove, hcall, ho⟩⟩

end Run

end Interlock
