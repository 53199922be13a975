import Interlock.Proofs.Thread.Charge

/-!
# The lives of a thread object

A thread object is started, and then joined or detached before it is started again.

  * `Run.OpenSince`: a start has succeeded and nothing has closed it. The object has just the thread
    of that start (`Run.exists_charge`);
  * `Run.Launches.own`: every start that succeeds has a thread of its own;
  * `Run.starts_iff`, `Run.joins_iff`, `Run.detaches_iff`: the state of the object decides which
    calls go on, and `Run.object_of_refused`: a start that does not succeed leaves it as it was;
  * `Run.Lifecycle`, `Run.thread_lifecycle`: what a caller can rely on.
-/

namespace Interlock

namespace Run

variable {r : Run} {o o' : ThreadRef} {i j k : Nat} {t u child child' : Tid} {choice : Choice}
  {notice : Notice} {x : Option Tid} {id : ThreadId}

/-! ## What has happened to an object

The thread that an object has now is tied to the past: it belongs to the last start that succeeded,
unless something has closed that. How starts alternate with joins and detaches is read off this. -/

/-- A start of object `o` succeeded in move `j`, with thread `child`, and before move `i` nothing
has closed it. -/
structure OpenSince (r : Run) (o : ThreadRef) (child : Tid) (j i : Nat) : Prop where
  launches : r.Launches o child j
  before : j < i
  spares : ∀ n, j < n → n < i → r.Spares o n

/-- A start is open after a move if the move is that start, or spares the object while one is
open. -/
theorem openSince_succ : (∃ j, r.OpenSince o child j (i + 1)) ↔
    r.Launches o child i ∨ r.Spares o i ∧ ∃ j, r.OpenSince o child j i := by
  constructor
  · rintro ⟨j, hopen⟩
    rcases Nat.lt_or_eq_of_le (Nat.le_of_lt_succ hopen.before) with hlt | rfl
    · exact .inr ⟨hopen.spares i hlt (Nat.lt_succ_self i), j, hopen.launches, hlt,
        fun n hjn hni => hopen.spares n hjn (Nat.lt_succ_of_lt hni)⟩
    · exact .inl hopen.launches
  · rintro (hlaunches | ⟨hspares, j, hopen⟩)
    · exact ⟨i, hlaunches, Nat.lt_succ_self i, fun n hin hni => by omega⟩
    · refine ⟨j, hopen.launches, Nat.lt_succ_of_lt hopen.before, fun n hjn hni => ?_⟩
      rcases Nat.lt_or_eq_of_le (Nat.le_of_lt_succ hni) with hlt | rfl
      · exact hopen.spares n hjn hlt
      · exact hspares

/-- The thread of an object is that of its last start, unless that is closed. -/
theorem Turn.open_iff {x' : Option Tid} {th : Thread} (hturn : r.Turn o i x x' th)
    (h : ∀ child, (∃ j, r.OpenSince o child j i) ↔ x = some child) (child : Tid) :
    (∃ j, r.OpenSince o child j (i + 1)) ↔ x' = some child := by
  -- a close ends every start that is open, and a step that closes launches nothing
  have hclosed (hcloses : r.Closes o i) :
      (∃ j, r.OpenSince o child j (i + 1)) ↔ none = some child := by
    rw [openSince_succ]
    constructor
    · rintro (hlaunches | ⟨hspares, -⟩)
      · exact absurd hcloses hlaunches.not_closes
      · exact absurd hcloses hspares.close
    · rintro ⟨⟩
  cases hturn with
  | kept hspares | new _ hspares | sets hspares | takes hspares =>
    rw [openSince_succ, h child]
    exact ⟨fun hor => hor.elim (absurd · (hspares.launch child)) And.right, fun hx =>
      .inr ⟨hspares, hx⟩⟩
  | starts hlaunches =>
    rw [openSince_succ]
    constructor
    · rintro (hlaunches' | ⟨hspares, -⟩)
      · rw [hlaunches.unique hlaunches']
      · exact absurd hlaunches (hspares.launch _)
    · rintro ⟨⟩
      exact .inl hlaunches
  | joins hjoins => exact hclosed (.join hjoins)
  | detaches hdetaches => exact hclosed (.detach hdetaches)

/-- The thread that an object has to join or detach is the one of the start that is open. -/
theorem exists_charge (hborrows : r.Borrows) (hblocks : r.JoinsBlock o) (i : Nat) :
    ∃ x, r.Charged o i x ∧ ∀ child, (∃ j, r.OpenSince o child j i) ↔ x = some child := by
  induction i with
  | zero =>
    refine ⟨none, ⟨rfl, by simp, ?_, by simp, by simp⟩, ?_⟩
    · rintro t child ⟨⟩
    · intro child
      constructor
      · rintro ⟨j, hopen⟩
        exact absurd hopen.before (Nat.not_lt_zero j)
      · rintro ⟨⟩
  | succ i ih =>
    obtain ⟨x, hcharged, hopen⟩ := ih
    obtain ⟨x', hturn, hcharged'⟩ := hcharged.turn hborrows hblocks
    exact ⟨x', hcharged', hturn.open_iff hopen⟩

/-- A join or a detach that succeeds closes a start that is open, a join the one of its thread. -/
theorem open_of_closes (hborrows : r.Borrows) (hblocks : r.JoinsBlock o) (h : r.Closes o i) :
    ∃ child j, r.OpenSince o child j i ∧
      ∀ child' notice, r.Joins o child' notice i → child' = child := by
  obtain ⟨x, hcharged, hopen⟩ := exists_charge hborrows hblocks i
  obtain ⟨x', hturn, -⟩ := hcharged.turn hborrows hblocks
  generalize r.object o (i + 1) = th at hturn
  have hsame (child' : Tid) (notice : Notice) (hjoins : r.Joins o child' notice i) :
      x = some child' := by
    obtain ⟨-, t, -, -, hcall, -⟩ := hjoins
    exact hcharged.waiting t child' hcall
  have hof {child : Tid} (hx : x = some child) : ∃ child j, r.OpenSince o child j i ∧
      ∀ child' notice, r.Joins o child' notice i → child' = child := by
    obtain ⟨j, hsince⟩ := (hopen child).2 hx
    exact ⟨child, j, hsince, fun child' notice hjoins =>
      Option.some.inj ((hsame child' notice hjoins).symm.trans hx)⟩
  cases hturn with
  | kept hspares | new _ hspares | sets hspares | takes hspares => exact absurd h hspares.close
  | starts hlaunches => exact absurd h hlaunches.not_closes
  | joins | detaches => exact hof rfl

/-- No start succeeds while one is open. -/
theorem Launches.not_open (h : r.Launches o child i) (hborrows : r.Borrows)
    (hblocks : r.JoinsBlock o) : ¬ r.OpenSince o child' j i := by
  intro hsince
  obtain ⟨x, hcharged, hopen⟩ := exists_charge hborrows hblocks i
  obtain ⟨x', hturn, -⟩ := hcharged.turn hborrows hblocks
  have hx := (hopen child').1 ⟨j, hsince⟩
  generalize r.object o (i + 1) = th at hturn
  cases hturn with
  | kept hspares | new _ hspares | sets hspares | takes hspares => exact hspares.launch _ h
  | starts => cases hx
  | joins hjoins => exact h.not_closes (.join hjoins)
  | detaches hdetaches => exact h.not_closes (.detach hdetaches)

/-- Between two starts that succeed one after the other there is one join or detach. -/
theorem Launches.closed (h : r.Launches o child j) (h' : r.Launches o child' k) (hjk : j < k)
    (hnext : ∀ n c, j < n → n < k → ¬ r.Launches o c n) (hborrows : r.Borrows)
    (hblocks : r.JoinsBlock o) :
    ∃ i, j < i ∧ i < k ∧ r.Closes o i ∧ ∀ n, j < n → n < k → r.Closes o n → n = i := by
  have hcloses : ∃ i, j < i ∧ i < k ∧ r.Closes o i := by
    by_contra hnone
    have hsince : r.OpenSince o child j k := ⟨h, hjk, fun n hjn hnk =>
      ⟨fun c => hnext n c hjn hnk, fun hclose => hnone ⟨n, hjn, hnk, hclose⟩⟩⟩
    exact h'.not_open hborrows hblocks hsince
  obtain ⟨i, hji, hik, hi⟩ := hcloses
  -- the later one of two would close a start that comes after the earlier one
  have hlater {m n : Nat} (hjm : j < m) (hm : r.Closes o m) (hmn : m < n) (hnk : n < k)
      (hn : r.Closes o n) : False := by
    obtain ⟨c, l, hsince, -⟩ := open_of_closes hborrows hblocks hn
    by_cases hlm : l < m
    · exact (hsince.spares m hlm hmn).close hm
    · exact hnext l c (Nat.lt_of_lt_of_le hjm (Nat.not_lt.1 hlm))
        (Nat.lt_trans hsince.before hnk) hsince.launches
  exact ⟨i, hji, hik, hi, fun n hjn hnk hn => Nat.le_antisymm
    (Nat.not_lt.1 fun hlt => hlater hji hi hlt hnk hn)
    (Nat.not_lt.1 fun hlt => hlater hjn hn hlt hik hi)⟩

/-! ## The thread of a start

A start goes in steps: it checks the object, spawns a thread and records it. Which thread a start
has is settled by the second step, and the number of a thread is never used again; so two starts
never have a thread in common, whatever becomes of the objects. -/

/-- A start that succeeds has recorded its thread. -/
theorem Launches.record (h : r.Launches o child i) : ∃ t id choice,
    r.move i = .advance t choice ∧
      (r.state i).call? t = some (.start o (.record id child)) := by
  obtain ⟨t, p, choice, hmove, hcall, hnotice⟩ := h
  obtain ⟨outer, q, hget, hstep, hworks⟩ := exists_works hcall rfl choice
  simp only [Machine.advance, hget, hstep] at hnotice
  cases hworks with
  | starts =>
    cases hnotice
    exact ⟨t, _, choice, hmove, hcall⟩
  | draws | spawns | denied | fails | refused => simp [Call.atBody] at hnotice

theorem launches_of_record (hmove : r.move i = .advance t choice)
    (hcall : (r.state i).call? t = some (.start o (.record id child))) : r.Launches o child i := by
  obtain ⟨outer, hget⟩ := List.head?_eq_some_iff.1 hcall
  exact ⟨t, _, choice, hmove, hcall, congrArg Prod.snd (Machine.advance_of_done hget rfl)⟩

/-- No two starts that succeed have the same thread. -/
theorem Launches.own (h : r.Launches o child j) (h' : r.Launches o' child k) : j = k ∧ o = o' := by
  obtain ⟨t, id, choice, hmove, hcall⟩ := h.record
  obtain ⟨u, id', choice', hmove', hcall'⟩ := h'.record
  obtain ⟨n, hspawned⟩ := exists_spawned hcall
  obtain ⟨n', hspawned'⟩ := exists_spawned hcall'
  obtain ⟨rfl, rfl⟩ := hspawned.unique hspawned'
  -- after its last step the start is over
  have hlater {j k : Nat} {o o' : ThreadRef} {id id' : ThreadId} {choice : Choice}
      (hmove : r.move j = .advance t choice)
      (hcall : (r.state j).call? t = some (.start o (.record id child)))
      (hspawned : r.Spawned t o id child n j) (hspawned' : r.Spawned t o' id' child n k) :
      ¬ j < k := by
    intro hjk
    have hclaim := Machine.claim_of_recorded (r.state_sound j) hcall choice
    rw [← hmove, ← state_succ] at hclaim
    have hwaits := hspawned'.waits (j + 1) (Nat.lt_succ_of_lt hspawned.before) hjk
    cases hclaim.symm.trans (Machine.claim_start.2 ⟨o', child, hwaits⟩)
  obtain rfl : j = k := Nat.le_antisymm
    (Nat.not_lt.1 (hlater hmove' hcall' hspawned' hspawned))
    (Nat.not_lt.1 (hlater hmove hcall hspawned hspawned'))
  cases hcall.symm.trans hcall'
  exact ⟨rfl, rfl⟩

/-- The thread of a start comes to its entry function before it ends. -/
theorem Launches.reachesEntry {ending : Ending} (h : r.Launches o child j)
    (hending : (r.state i).ending child = some ending) :
    ∃ k e, k < e ∧ e < i ∧ r.ReachesEntry child k ∧ r.move e = .exit child ending := by
  obtain ⟨t, id, choice, -, hcall⟩ := h.record
  obtain ⟨n, hspawned⟩ := exists_spawned hcall
  obtain ⟨e, hei, hexit⟩ := exists_exit hending
  obtain ⟨k, hke, hentry⟩ := hspawned.reachesEntry hexit
  exact ⟨k, e, hke, hei, hentry, hexit⟩

/-! ## When calls succeed

The first step of a call is its check, and the check passes in just one state of the object. After
it a start can still be refused a thread, by its name or by the operating system, and a join has to
wait. -/

/-- A start goes past its check where the object is not running. -/
theorem starts_iff (hborrows : r.Borrows) (hmove : r.move i = .advance t choice)
    (hcall : (r.state i).call? t = some (.start o .entry)) : (r.object o i).running = false ↔
      ∃ id, (r.state (i + 1)).call? t = some (.start o (.spawn id)) := by
  obtain ⟨outer, p, hget, hstep, hworks⟩ := exists_works hcall rfl choice
  cases hworks with
  | draws hidle =>
    exact iff_of_true hidle ⟨_, (goes_of_next hborrows hmove hget rfl hstep).2.2.1⟩
  | fails hfails =>
    obtain ⟨-, -, hfree⟩ := free_of_last hborrows hmove hget (o := o) rfl
      (Machine.advance_of_fault hget hstep)
    obtain ⟨-, hrunning⟩ | ⟨id, hp, -⟩ := hfails
    · refine iff_of_false (by simp [object, hrunning]) ?_
      rintro ⟨id, hcall'⟩
      exact hfree t _ hcall' rfl
    · cases hp
  | refused hcall' => simp at hcall'

/-- It spawns its thread unless that is refused. -/
theorem spawns_iff (hborrows : r.Borrows) (hmove : r.move i = .advance t choice)
    (hcall : (r.state i).call? t = some (.start o (.spawn id))) :
    (r.object o i).name.filter ThreadName.hasNul = none ∧ choice.refuse = false ↔
      ∃ child, (r.state (i + 1)).call? t = some (.start o (.record id child)) := by
  obtain ⟨outer, p, hget, hstep, hworks⟩ := exists_works hcall rfl choice
  cases hworks with
  | spawns hnamed hgranted =>
    exact iff_of_true ⟨hnamed, hgranted⟩ ⟨_, (goes_of_next hborrows hmove hget rfl hstep).2.2.1⟩
  | denied hdenied =>
    -- a start that fails is over, so it has nothing to record
    obtain ⟨-, -, hfree⟩ := free_of_last hborrows hmove hget (o := o) rfl
      (Machine.advance_of_done hget hstep)
    refine iff_of_false (fun hand => ?_) ?_
    · cases hdenied.symm.trans hand.2
    · rintro ⟨child, hcall'⟩
      exact hfree t _ hcall' rfl
  | fails hfails =>
    obtain ⟨-, -, hfree⟩ := free_of_last hborrows hmove hget (o := o) rfl
      (Machine.advance_of_fault hget hstep)
    obtain ⟨hp, -⟩ | ⟨id, -, hname⟩ := hfails
    · cases hp
    · refine iff_of_false (fun hand => hname hand.1) ?_
      rintro ⟨child, hcall'⟩
      exact hfree t _ hcall' rfl
  | refused hcall' => simp at hcall'

/-- A join goes on to wait where the object is running. -/
theorem joins_iff (hborrows : r.Borrows) (hblocks : r.JoinsBlock o)
    (hmove : r.move i = .advance t choice)
    (hcall : (r.state i).call? t = some (.join o .entry)) : (r.object o i).running = true ↔
      ∃ child, (r.state (i + 1)).call? t = some (.join o (.waiting child)) := by
  obtain ⟨outer, p, hget, hstep, hworks⟩ := exists_works hcall rfl choice
  obtain ⟨x, hcharged, -⟩ := exists_charge hborrows hblocks i
  have hheld := hcharged.isHeld_eq (hborrows.state i)
    (not_waiting hborrows hmove hget (o := o) rfl (by simp))
  cases hworks with
  | takes htaken =>
    exact iff_of_true (hheld.symm.trans htaken)
      ⟨_, (goes_of_next hborrows hmove hget rfl hstep).2.2.1⟩
  | refused _ hrefused =>
    obtain ⟨-, -, hfree⟩ := free_of_last hborrows hmove hget (o := o) rfl
      (Machine.advance_of_fault hget hstep)
    refine iff_of_false (by simp [← hheld, show (r.object o i).isHeld = false from hrefused]) ?_
    rintro ⟨child, hcall'⟩
    exact hfree t _ hcall' rfl

/-- It ends as soon as its thread has. -/
theorem waits_iff (hblocks : r.JoinsBlock o) (hmove : r.move i = .advance t choice)
    (hcall : (r.state i).call? t = some (.join o (.waiting child))) :
    (r.state i).ending child ≠ none ↔ ∃ notice, r.Joins o child notice i := by
  refine ⟨fun hending => ⟨_, fun hblocked => ?_, t, choice, hmove, hcall, rfl⟩,
    fun ⟨notice, hjoins⟩ => hblocks child notice i hjoins⟩
  obtain ⟨outer, p, hget, hstep, hworks⟩ := exists_works hcall rfl choice
  simp only [Machine.advance, hget, hstep] at hblocked
  cases hworks with
  | waits hlives => exact hending hlives
  | itself => cases hblocked
  | @joins s' _ ending _ _ => cases ending <;> cases hblocked
  | refused hcall' => simp at hcall'

/-- A detach succeeds where the object is running. -/
theorem detaches_iff (hborrows : r.Borrows) (hblocks : r.JoinsBlock o)
    (hmove : r.move i = .advance t choice) (hcall : (r.state i).call? t = some (.detach o)) :
    (r.object o i).running = true ↔ r.Detaches o i := by
  obtain ⟨outer, p, hget, hstep, hworks⟩ := exists_works hcall rfl choice
  obtain ⟨x, hcharged, -⟩ := exists_charge hborrows hblocks i
  have hheld := hcharged.isHeld_eq (hborrows.state i)
    (not_waiting hborrows hmove hget (o := o) rfl (by simp))
  cases hworks with
  | detaches hdetached =>
    exact iff_of_true (hheld.symm.trans hdetached) ⟨t, choice, hmove, hcall,
      congrArg Prod.snd (Machine.advance_of_done hget hstep)⟩
  | refused _ hrefused =>
    obtain ⟨hperforms, -⟩ := free_of_last hborrows hmove hget (o := o) rfl
      (Machine.advance_of_fault hget hstep)
    refine iff_of_false (by simp [← hheld, show (r.object o i).isHeld = false from hrefused]) ?_
    rintro ⟨u, hperforms'⟩
    cases (hperforms.unique hperforms').2.2

/-! ## Starts that do not succeed

A start draws an identity before it can fail, and the thread that it asks for is not the object's
business. The object itself is written in the last step only, which a refused start never comes
to. -/

/-- A step of a start changes its object only where the start succeeds. -/
theorem object_of_start {p : StartPhase} (hborrows : r.Borrows)
    (hcall : (r.state i).call? t = some (.start o p)) (h : ∀ child, ¬ r.Launches o child i) :
    r.object o (i + 1) = r.object o i := by
  cases (r.state i).threadEvent (r.move i) o with
  | kept hsame => exact hsame
  | new hborn => exact absurd (born_of_call hcall rfl) (Nat.not_lt.2 hborn)
  | @touched u choice call hmove hcall' htouches =>
    have hcalls (ho : call.thread? = some o) : call = .start o p := by
      obtain rfl := (hborrows.state i).alone o u t _ _ hcall' hcall ho rfl
      exact Option.some.inj (hcall'.symm.trans hcall)
    generalize ((r.state i).apply (r.move i)).store.threads.get o = th at htouches
    cases htouches with
    | started => exact absurd (launches_of_record hmove hcall') (h _)
    | configured | taken | joined | detached | refused => cases hcalls rfl

/-- A start that does not succeed leaves its object as it was, from its beginning on. -/
theorem object_of_refused {p : StartPhase} (hborrows : r.Borrows)
    (hbegin : r.move j = .begin t (.starting o))
    (hcalls : ∀ n, j < n → n ≤ i → ∃ p, (r.state n).call? t = some (.start o p))
    (hends : r.Performs t i (.start o p) notice)
    (hnotice : ∀ child, notice ≠ .replied (.started (some child))) (hjk : j ≤ k)
    (hki : k ≤ i + 1) : r.object o k = r.object o j := by
  induction hjk with
  | refl => rfl
  | @step k hjk ih =>
    refine Eq.trans ?_ (ih (Nat.le_of_lt hki))
    rcases Nat.lt_or_eq_of_le hjk with hlt | rfl
    · obtain ⟨q, hcall⟩ := hcalls k hlt (Nat.le_of_lt_succ hki)
      refine object_of_start hborrows hcall fun child hlaunches => ?_
      rcases Nat.lt_or_eq_of_le (Nat.le_of_lt_succ hki) with hki' | rfl
      -- where it succeeds, the call ends
      · obtain ⟨u, id, choice, hmove, hcall'⟩ := hlaunches.record
        obtain ⟨outer, hget⟩ := List.head?_eq_some_iff.1 hcall'
        obtain rfl := (hborrows.state k).alone o t u _ _ hcall hcall' rfl rfl
        obtain ⟨-, -, hfree⟩ := free_of_last hborrows hmove hget (o := o) rfl
          (Machine.advance_of_done hget rfl)
        obtain ⟨q', hlast⟩ := hcalls (k + 1) (Nat.lt_succ_of_lt hlt) hki'
        exact hfree t _ hlast rfl
      · obtain ⟨u, q, hperforms⟩ := hlaunches
        exact hnotice child (hends.unique hperforms).2.2
    · rw [object, state_succ, hbegin]
      rfl

/-! ## What a caller can rely on

`Lifecycle` speaks of the object between calls, of one move and of the whole history. Two
assumptions go in: a call has its object to itself (`Borrows`), and `join` returns only after its
thread has ended (`JoinsBlock`), which is what the standard library promises. -/

/-- What move `i` makes of the state of object `o`. -/
inductive Moves (r : Run) (o : ThreadRef) (i : Nat) : ThreadState → ThreadState → Prop
  | stays {state : ThreadState} (hspares : r.Spares o i) : Moves r o i state state
  | started {child : Tid} {state : ThreadState} (hlaunches : r.Launches o child i)
    (hidle : state ≠ .running) : Moves r o i state .running
  | joined {child : Tid} {notice : Notice} (hjoins : r.Joins o child notice i) :
    Moves r o i .running .joined
  | detached (hdetaches : r.Detaches o i) : Moves r o i .running .detached

/-- The lives of thread object `o`. -/
structure Lifecycle (r : Run) (o : ThreadRef) : Prop where
  /-- Between calls the handle and the identity say what the state says. -/
  between : ∀ i, r.Free o i →
    ((r.object o i).handle.isSome ↔ (r.object o i).state = .running) ∧
      ((r.object o i).id ≠ .nobody ↔ (r.object o i).state = .running)
  moves : ∀ i, o < (r.state i).store.nextHandle →
    r.Moves o i (r.object o i).state (r.object o (i + 1)).state
  /-- A start that is refused or panics leaves the object as it was. -/
  refused : ∀ t j i p notice, r.move j = .begin t (.starting o) →
    (∀ n, j < n → n ≤ i → ∃ p, (r.state n).call? t = some (.start o p)) →
    r.Performs t i (.start o p) notice →
    (∀ child, notice ≠ .replied (.started (some child))) →
    ∀ k, j ≤ k → k ≤ i + 1 → r.object o k = r.object o j
  /-- Each start that succeeds has a thread of its own, -/
  own : ∀ o' child j k, r.Launches o child j → r.Launches o' child k → j = k ∧ o = o'
  /-- which comes to its entry function at most once, and ends at most once. -/
  once : ∀ child j k, (r.ReachesEntry child j → r.ReachesEntry child k → j = k) ∧
    ∀ e e', r.move j = .exit child e → r.move k = .exit child e' → j = k
  /-- A start that succeeds is closed by one join or detach before the next one succeeds, -/
  alternate : ∀ j k child child', r.Launches o child j → r.Launches o child' k → j < k →
    (∀ n c, j < n → n < k → ¬ r.Launches o c n) →
    ∃ i, j < i ∧ i < k ∧ r.Closes o i ∧ ∀ n, j < n → n < k → r.Closes o n → n = i
  /-- and each join or detach closes a start that nothing has closed before. -/
  closes : ∀ i, r.Closes o i → ∃ child j, r.OpenSince o child j i ∧
    ∀ child' notice, r.Joins o child' notice i → child' = child
  /-- A join ends as the thread of the last start has ended, after its entry function was reached,
  and leaves the object joined. -/
  joined : ∀ child notice i, r.Joins o child notice i →
    (∃ j k e ending, r.OpenSince o child j i ∧ k < e ∧ e < i ∧ r.ReachesEntry child k ∧
      r.move e = .exit child ending ∧ notice = ending.notice) ∧
    (r.object o (i + 1)).state = .joined ∧ (r.object o (i + 1)).id = .nobody ∧
      (r.object o (i + 1)).handle = none
  /-- A start goes past its check where the object is not running, spawns its thread unless that is
  refused, and then succeeds. -/
  starts : ∀ t choice i, r.move i = .advance t choice →
    ((r.state i).call? t = some (.starting o) → ((r.object o i).state ≠ .running ↔
      ∃ id, (r.state (i + 1)).call? t = some (.start o (.spawn id)))) ∧
    (∀ id, (r.state i).call? t = some (.start o (.spawn id)) →
      ((r.object o i).name.filter ThreadName.hasNul = none ∧ choice.refuse = false ↔
        ∃ child, (r.state (i + 1)).call? t = some (.start o (.record id child)))) ∧
    ∀ id child, (r.state i).call? t = some (.start o (.record id child)) → r.Launches o child i
  /-- A join goes on to wait where the object is running, and ends as soon as its thread has. -/
  joins : ∀ t choice i, r.move i = .advance t choice →
    ((r.state i).call? t = some (.joining o) → ((r.object o i).state = .running ↔
      ∃ child, (r.state (i + 1)).call? t = some (.join o (.waiting child)))) ∧
    ∀ child, (r.state i).call? t = some (.join o (.waiting child)) →
      ((r.state i).ending child ≠ none ↔ ∃ notice, r.Joins o child notice i)
  detaches : ∀ t choice i, r.move i = .advance t choice → (r.state i).call? t = some (.detach o) →
    ((r.object o i).state = .running ↔ r.Detaches o i)
  /-- An object that is not running is destroyed without a word, and no other one is. -/
  silent : ∀ i unwinding, (r.object o i).state ≠ .running ↔
    (r.state i).store.destroy (.thread o) unwinding = ((r.state i).store, none)

/-- The turns of an object are moves of its state. -/
theorem Turn.moves {x x' : Option Tid} {th : Thread} (h : r.Turn o i x x' th)
    (hrunning : (r.object o i).running = x.isSome) (hborn : o < (r.state i).store.nextHandle) :
    r.Moves o i (r.object o i).state th.state := by
  have hopen {child : Tid} (hx : x = some child) : (r.object o i).state = .running := by
    rw [← Thread.running_iff, hrunning, hx]
    rfl
  cases h with
  | kept hspares | takes hspares => exact .stays hspares
  | sets hspares =>
    rw [Thread.configured_state]
    exact .stays hspares
  | new hlater => exact absurd hborn (Nat.not_lt.2 hlater)
  | starts hlaunches =>
    refine .started hlaunches fun hstate => ?_
    rw [Thread.running_iff.2 hstate] at hrunning
    cases hrunning
  | joins hjoins =>
    rw [hopen rfl]
    exact .joined hjoins
  | detaches hdetaches =>
    rw [hopen rfl]
    exact .detached hdetaches

/-- A join that ends hands on how its thread has ended, with the object joined. -/
theorem Joins.ended (h : r.Joins o child notice i) (hborrows : r.Borrows)
    (hblocks : r.JoinsBlock o) :
    ∃ ending, (r.state i).ending child = some ending ∧ notice = ending.notice ∧
      (r.object o (i + 1)).state = .joined ∧ (r.object o (i + 1)).id = .nobody ∧
      (r.object o (i + 1)).handle = none := by
  obtain ⟨x, hcharged, -⟩ := exists_charge hborrows hblocks i
  obtain ⟨x', hturn, -⟩ := hcharged.turn hborrows hblocks
  have hcloses : r.Closes o i := .join h
  obtain ⟨hmoves, t, hperforms⟩ := h
  generalize r.object o (i + 1) = th at hturn ⊢
  cases hturn with
  | kept hspares | new _ hspares | sets hspares | takes hspares =>
    exact absurd hcloses hspares.close
  | starts hlaunches => exact absurd hcloses hlaunches.not_closes
  | @joins child' ending hjoins hending hhandle =>
    obtain ⟨-, u, hperforms'⟩ := hjoins
    obtain ⟨-, hcall, rfl⟩ := hperforms.unique hperforms'
    cases hcall
    exact ⟨ending, hending, rfl, rfl, rfl, hhandle⟩
  | detaches hdetaches =>
    obtain ⟨u, hperforms'⟩ := hdetaches
    cases (hperforms.unique hperforms').2.1

/-- In every run in which no two calls are on a thread object at once, and joins wait for the end of
its threads, whatever is done to the object in whatever order. -/
theorem thread_lifecycle (hborrows : r.Borrows) (hblocks : r.JoinsBlock o) : r.Lifecycle o where
  between := by
    intro i hfree
    obtain ⟨x, hcharged, -⟩ := exists_charge hborrows hblocks i
    have hhandle := hcharged.handle_eq (hborrows.state i) fun t child hcall => hfree t _ hcall rfl
    rw [hhandle, ← hcharged.running, ← Thread.running_iff]
    refine ⟨Iff.rfl, ?_⟩
    cases hrunning : (r.object o i).running with
    | false => simp [show (r.object o i).id = .nobody from (r.state_named i).idle o hrunning]
    | true =>
      obtain ⟨child, ⟨hid, -⟩, -⟩ := (r.state_named i).object o hrunning
      exact ⟨fun _ => rfl, fun _ => hid⟩
  moves := by
    intro i hborn
    obtain ⟨x, hcharged, -⟩ := exists_charge hborrows hblocks i
    obtain ⟨x', hturn, -⟩ := hcharged.turn hborrows hblocks
    exact hturn.moves hcharged.running hborn
  refused := fun _ _ _ _ _ hbegin hcalls hends hnotice _ =>
    object_of_refused hborrows hbegin hcalls hends hnotice
  own := fun _ _ _ _ => Launches.own
  once := fun _ _ _ => ⟨ReachesEntry.unique, fun _ _ => exit_unique⟩
  alternate := fun _ _ _ _ h h' hjk hnext => h.closed h' hjk hnext hborrows hblocks
  closes := fun _ => open_of_closes hborrows hblocks
  joined := by
    intro child notice i hjoins
    obtain ⟨ending, hending, hnotice, hobject⟩ := hjoins.ended hborrows hblocks
    obtain ⟨child', j, hsince, hchild⟩ := open_of_closes hborrows hblocks (.join hjoins)
    obtain rfl := hchild child notice hjoins
    obtain ⟨k, e, hke, hei, hentry, hexit⟩ := hsince.launches.reachesEntry hending
    exact ⟨⟨j, k, e, ending, hsince, hke, hei, hentry, hexit, hnotice⟩, hobject⟩
  starts := fun t choice i hmove =>
    ⟨fun hcall => Thread.not_running_iff.symm.trans (starts_iff hborrows hmove hcall),
      fun id => spawns_iff hborrows hmove, fun id child => launches_of_record hmove⟩
  joins := fun t choice i hmove =>
    ⟨fun hcall => Thread.running_iff.symm.trans (joins_iff hborrows hblocks hmove hcall),
      fun child => waits_iff hblocks hmove⟩
  detaches := fun t choice i hmove hcall =>
    Thread.running_iff.symm.trans (detaches_iff hborrows hblocks hmove hcall)
  silent := by
    intro i unwinding
    rw [← Thread.not_running_iff, object, Store.destroy, Thread.dropViolation]
    cases hrunning : ((r.state i).store.threads.get o).running with
    | false => exact iff_of_true rfl rfl
    | true =>
      refine iff_of_false (by simp) fun heq => ?_
      -- a report is a new record of the log
      have hlog := congrArg (fun left => left.1.log.length) heq
      simp [Store.reportDrop, Store.report] at hlog

end Run

/-! ### A run in which a thread panics

Whether joins wait is checked along a finite list of moves, so that a run can be shown to be one of
those that the theorem speaks of. -/

/-- Whether a move ends no join of a thread that goes on. -/
def Machine.joinsBlock? (m : Machine) : Move → Bool
  | .advance t choice =>
    match m.call? t with
    | some (.join _ (.waiting child)) =>
      (m.advance t choice).2 == .blocked || (m.ending child).isSome
    | _ => true
  | _ => true

namespace Run

/-- A run made of a list of moves, each of which has been checked, is one in which joins wait. -/
theorem joinsBlock_ofList {moves : List Move} (h : feasible .initial moves = true)
    (hblocks : along Machine.joinsBlock? .initial moves = true) (o : ThreadRef) :
    (ofList moves h).JoinsBlock o := by
  rintro child notice i ⟨hmoves, t, choice, hmove, hcall, hnotice⟩
  have hstep := along_extend (fun _ => rfl) hblocks i
  have hmove' : extend moves i = .advance t choice := hmove
  have hcall' : (Machine.after (extend moves) i).call? t = some (.join o (.waiting child)) := hcall
  have hnotice' : ((Machine.after (extend moves) i).advance t choice).2 = notice := hnotice
  rw [hmove'] at hstep
  simp only [Machine.joinsBlock?, hcall', hnotice', Bool.or_eq_true, beq_iff_eq, hmoves,
    false_or] at hstep
  intro hnone
  rw [show (Machine.after (extend moves) i).ending child = none from hnone] at hstep
  cases hstep

/-- Thread 0 starts an object and joins it after its thread has panicked, is refused another thread,
starts the object again and detaches it. -/
def relaunched : Run :=
  ofList
    ([.create (.thread none none), .begin 0 (.starting 0)] ++ steps 0 3 ++ steps 1 1 ++
      [.exit 1 (.panicked (.client "entry failed")), .begin 0 (.joining 0)] ++ steps 0 2 ++
      [.begin 0 (.starting 0)] ++ steps 0 1 ++ [.advance 0 ⟨0, true⟩, .begin 0 (.starting 0)] ++
      steps 0 3 ++ steps 2 1 ++ [.begin 0 (.detach 0)] ++ steps 0 1) (by decide +kernel)

/-- The join hands the panic on with the object joined, and what comes after it goes well. -/
theorem thread_lifecycle_relaunched :
    relaunched.Borrows ∧ relaunched.JoinsBlock 0 ∧ relaunched.Lifecycle 0 ∧
      relaunched.Launches 0 1 4 ∧ relaunched.ReachesEntry 1 5 ∧
      relaunched.Joins 0 1 (.panicked (.client "entry failed")) 9 ∧
      relaunched.object 0 10 = ⟨.nobody, none, .joined, none, none⟩ ∧
      relaunched.Performs 0 12 (.start 0 (.spawn ⟨2⟩)) (.replied (.started none)) ∧
      relaunched.object 0 13 = relaunched.object 0 10 ∧ relaunched.Launches 0 2 16 ∧
      relaunched.Detaches 0 19 ∧
      relaunched.object 0 20 = ⟨.nobody, none, .detached, none, none⟩ := by
  have hborrows : relaunched.Borrows := borrows_ofList _ (by decide +kernel)
  have hblocks : relaunched.JoinsBlock 0 := joinsBlock_ofList _ (by decide +kernel) 0
  refine ⟨hborrows, hblocks, thread_lifecycle hborrows hblocks, ?_, ?_, ?_, by decide +kernel, ?_,
    by decide +kernel, ?_, ?_, by decide +kernel⟩
  · exact ⟨0, .record ⟨1⟩ 1, ⟨0, false⟩, rfl, by decide +kernel, by decide +kernel⟩
  · exact ⟨⟨1⟩, ⟨0, false⟩, rfl, by decide +kernel, by decide +kernel⟩
  · exact ⟨by simp, 0, ⟨0, false⟩, rfl, by decide +kernel, by decide +kernel⟩
  · exact ⟨⟨0, true⟩, rfl, by decide +kernel, by decide +kernel⟩
  · exact ⟨0, .record ⟨3⟩ 2, ⟨0, false⟩, rfl, by decide +kernel, by decide +kernel⟩
  · exact ⟨0, ⟨0, false⟩, rfl, by decide +kernel, by decide +kernel⟩

end Run

end Interlock
