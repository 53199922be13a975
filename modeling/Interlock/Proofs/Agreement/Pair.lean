import Interlock.Proofs.Agreement.Lockstep
import Mathlib.Logic.Function.Basic

/-!
# A machine and its twin

A machine with portable condition variables beside one with the platform's, and what it means that
the second one follows the first.

  * `Machine.Goes`: moves of a program on the platform's backend, and what they show;
  * `Machine.Regular`: what holds of the first machine all along its run;
  * `Machine.Agrees`: the two belong together. Calls are in the phases that `Call.mirror` says, and
    a sleeper's twin has no later deadline;
  * `Machine.Matched`: the twin can go on so that it shows the same and belongs to the first
    machine's next state.
-/

namespace Interlock

/-! ## Moves of the twin

One move of the first machine is answered by a list of moves of the second one, which may be
empty. -/

namespace Machine

/-- Moves of a program on the platform's backend lead from one machine to another, and show
`events`. -/
def Goes (m : Machine) (events : List Shown) (m' : Machine) : Prop :=
  ∃ moves, Run.feasible m moves = true ∧ moves.all (Move.isOn .native) = true ∧
    m.trace moves = events ∧ Run.follow m moves = m'

variable {m m' m'' : Machine} {events events' : List Shown}

theorem Goes.refl (m : Machine) : m.Goes [] m := ⟨[], rfl, rfl, rfl, rfl⟩

/-- Moves can be made after each other. -/
theorem Goes.trans (h : m.Goes events m') (h' : m'.Goes events' m'') :
    m.Goes (events ++ events') m'' := by
  obtain ⟨moves, hfeasible, hon, rfl, rfl⟩ := h
  obtain ⟨rest, hfeasible', hon', rfl, rfl⟩ := h'
  refine ⟨moves ++ rest, ?_, ?_, Run.trace_append .., Run.follow_append ..⟩
  · rw [Run.feasible, Run.along_append, Bool.and_eq_true]
    exact ⟨hfeasible, hfeasible'⟩
  · rw [List.all_append, hon, hon']
    rfl

/-- A move that is allowed can be made. -/
theorem Goes.move {move : Move} (hallows : m.allows move = true)
    (hon : move.isOn .native = true) : m.Goes (m.shows move) (m.apply move) := by
  refine ⟨[move], ?_, ?_, List.append_nil _, rfl⟩
  · simp [Run.feasible, Run.along, hallows]
  · simp [hon]

end Machine

/-! ## Regular machines

The twin follows from state to state, and what it needs to know of the first machine in each of them
has been shown before: owners, identities, holders, and the cycle of every condition variable. Two
facts are added here that concern single places. -/

/-- A wait begins in front of the entry gate. -/
theorem Fallback.Turn.enter_of_waiting {f f' : Fallback} {p : Place} {l : LockRef}
    {d : Option Duration} {q : FallbackWaitPhase} (h : f.Turn p f' (.waiting l d q))
    (hp : ∀ l d q, p ≠ .waiting l d q) : q = .enter := by
  cases h <;> first
    | rfl
    | exact absurd rfl (hp _ _ _)

theorem Fallback.Turn.of_registering {f f' : Fallback} {p p' : Place} (h : f.Turn p f' p')
    (hp : p.isRegistered = false) (hp' : p'.isRegistered = true) :
    ∃ l d, p = .waiting l d .register := by
  cases h <;> simp_all [Place.isRegistered, FallbackWaitPhase.isRegistered]

theorem Fallback.Turn.of_reopening {f f' : Fallback} {p : Place} {e : WakeEvent}
    (h : f.Turn p f' (.waking e .reopen)) : p = .waking e .reopen ∨ p = .waking e .retract := by
  cases h <;> simp

namespace Machine

/-- What holds of a machine all along its run. -/
structure Regular (m : Machine) : Prop where
  sound : m.Sound
  identified : m.Identified
  holds : ∀ l, m.Holds l
  orderly : ∀ c, m.Orderly c
  /-- A sleeper has an identity. -/
  known : ∀ c t l d p, m.place c t = .waiting l d p → m.store.ids.own.get t ≠ .nobody
  /-- Nobody is registered while a wakeup without sleepers opens the gate again. -/
  lonely : ∀ c t e, m.place c t = .waking e .reopen → ∀ u, (m.place c u).isRegistered = false

end Machine

namespace Run

variable {r : Run} {c : CondRef}

/-- A thread that has come to wait has an identity. -/
theorem state_known (hlimit : r.WithinLimit c) (i : Nat) {t : Tid} {l : LockRef}
    {d : Option Duration} {p : FallbackWaitPhase} (h : (r.state i).place c t = .waiting l d p) :
    (r.state i).store.ids.own.get t ≠ .nobody := by
  induction i generalizing l d p with
  | zero => cases h
  | succ i ih =>
    by_cases hold : ∃ l d p, (r.state i).place c t = .waiting l d p
    · obtain ⟨l', d', p', hold⟩ := hold
      rw [Machine.Change.own (r.state_change i) (r.state_sound i) (ih hold)]
      exact ih hold
    · have hout (l : LockRef) (d : Option Duration) (p : FallbackWaitPhase) :
          (r.state i).place c t ≠ .waiting l d p :=
        fun heq => hold ⟨l, d, p, heq⟩
      cases state_event hlimit i with
      | reset hplace hplace' =>
        rw [hplace'] at h
        cases h
      | @turn u f f' hcond hcond' hturn hmover hothers =>
        by_cases hut : t = u
        · subst hut
          rw [h] at hturn
          obtain rfl := hturn.enter_of_waiting hout
          -- whoever comes to the gate has the mutex, and its identity is in the owner word
          obtain ⟨hgrip, -⟩ := Machine.grip_of_waiting h (r.state_identified (i + 1))
          have hfits := (r.state_holds l (i + 1)).grips t
          rw [hgrip] at hfits
          exact hfits.2
        · exact absurd (hothers t hut ▸ h) (hout l d p)

/-- A wakeup that found nobody opens the gate again while nobody is registered. -/
theorem state_lonely (hlimit : r.WithinLimit c) (i : Nat) {t : Tid} {e : WakeEvent}
    (h : (r.state i).place c t = .waking e .reopen) (u : Tid) :
    ((r.state i).place c u).isRegistered = false := by
  -- whoever has closed the gate and found nobody is alone: to register, a thread would have to be
  -- entering
  induction i generalizing u with
  | zero => cases h
  | succ i ih =>
    cases state_event hlimit i with
    | reset hplace hplace' =>
      rw [hplace']
      rfl
    | @turn v f f' hcond hcond' hturn hmover hothers =>
      obtain ⟨st, hcycle⟩ := (state_orderly hlimit i).portable f hcond
      by_cases hold : (r.state i).place c t = .waking e .reopen
      · by_cases huv : u = v
        · subst huv
          by_contra hregistered
          obtain ⟨l, d, hregister⟩ := hturn.of_registering (ih hold u) (by simpa using hregistered)
          have hentering : st = .entering u := (hcycle.post_of hregister).allows
          have hreopening : st = .reopening t := (hcycle.post_of hold).allows
          cases hentering.symm.trans hreopening
        · rw [hothers u huv]
          exact ih hold u
      · have htv : t = v := by
          by_contra htv
          exact hold (hothers t htv ▸ h)
        subst htv
        -- the thread has only now come here, as the last one to leave
        rw [h] at hturn
        have hretract := hturn.of_reopening.resolve_left hold
        obtain ⟨e', rfl, -⟩ := (hcycle.post_of hretract).allows
        have hempty : (r.state i).registered c = ∅ := hcycle.last
        by_cases hut : u = t
        · subst hut
          rw [h]
          rfl
        · rw [hothers u hut, ← Bool.not_eq_true, ← Machine.mem_registered (r.state_sound i), hempty]
          exact Finset.notMem_empty u

/-- All states of a run are regular, as long as sleepers are within what the word can count. -/
theorem state_regular (hlimit : ∀ c, r.WithinLimit c) (i : Nat) : (r.state i).Regular where
  sound := r.state_sound i
  identified := r.state_identified i
  holds l := r.state_holds l i
  orderly c := state_orderly (hlimit c) i
  known c _ _ _ _ h := state_known (hlimit c) i h
  lonely c _ _ h u := state_lonely (hlimit c) i h u

end Run

/-! ## Deadlines

A sleeper computes its deadline after it has registered, and its twin does so when it joins the
queue, which is earlier. So the time of the twin is up when that of the sleeper is, and the twin may
wait as long as it has to. -/

/-- The first deadline comes, and not later than the second one, if that comes at all. -/
def Instant.Sooner (a b : Option Instant) : Prop :=
  ∀ y, b = some y → ∃ x, a = some x ∧ x.nanos ≤ y.nanos

namespace Instant

theorem Sooner.refl (a : Option Instant) : Sooner a a := fun y hy => ⟨y, hy, Int.le_refl _⟩

/-- Deadlines that come sooner can be compared along a chain. -/
theorem Sooner.trans {a b d : Option Instant} (h : Sooner a b) (h' : Sooner b d) : Sooner a d := by
  intro z hz
  obtain ⟨y, hy, hyz⟩ := h' z hz
  obtain ⟨x, hx, hxy⟩ := h y hy
  exact ⟨x, hx, Int.le_trans hxy hyz⟩

/-- What comes sooner has been reached earlier. -/
theorem Sooner.reached {a b : Option Instant} (h : Sooner a b) {now : Instant}
    (hb : now.reached b = true) : now.reached a = true := by
  cases b with
  | none => cases hb
  | some y =>
    obtain ⟨x, rfl, hxy⟩ := h y rfl
    simp only [Instant.reached, decide_eq_true_eq] at hb ⊢
    exact Int.le_trans hxy hb

theorem le_advance (now : Instant) (n : Nat) : now.nanos ≤ (now.advance n).nanos := by
  have := now.nanos_lt
  simp only [advance]
  omega

/-- A wait that begins later ends later. -/
theorem sooner_deadline {now later : Instant} (h : now.nanos ≤ later.nanos)
    (timeout : Option Duration) : Sooner (now.deadline timeout) (later.deadline timeout) := by
  intro y hy
  cases timeout with
  | none => cases hy
  | some d =>
    simp only [deadline, Option.bind_some, add?] at hy ⊢
    split at hy
    · cases hy
      have hlt : now.nanos + d.nanos < 0x8000_0000_0000_0000 * 1_000_000_000 := by omega
      exact ⟨_, dif_pos hlt, Int.add_le_add_right h d.nanos⟩
    · cases hy

end Instant

/-- The twin of a sleeper is in the queue since the sleeper registered, and the sleeper computes its
deadline later. Without a timeout there is none. -/
def FallbackWaitPhase.Punctual (now : Instant) (timeout : Option Duration)
    (deadline : Option Instant) : FallbackWaitPhase → Prop
  | handBack | unlocking _ | listen =>
    Instant.Sooner deadline (now.deadline (timeout.map Duration.truncated)) ∧
      (timeout = none → deadline = none)
  | parked own => Instant.Sooner deadline own ∧ (timeout = none → deadline = none)
  | _ => True

def WaitPhase.Punctual (now : Instant) (timeout : Option Duration) (deadline : Option Instant) :
    WaitPhase → Prop
  | fallback p => p.Punctual now timeout deadline
  | _ => True

def Call.Punctual (now : Instant) (deadline : Option Instant) : Call → Prop
  | wait _ _ timeout p | waitWhile _ _ _ (.waiting _ timeout p) => p.Punctual now timeout deadline
  | _ => True

section

variable {now later : Instant} {timeout : Option Duration} {deadline : Option Instant}

/-- A sleeper in any of its phases stays punctual while time passes. -/
theorem FallbackWaitPhase.Punctual.mono {p : FallbackWaitPhase}
    (h : p.Punctual now timeout deadline) (hle : now.nanos ≤ later.nanos) :
    p.Punctual later timeout deadline := by
  cases p <;> first
    | exact h
    | exact ⟨h.1.trans (Instant.sooner_deadline hle _), h.2⟩

/-- A sleeper stays punctual while time passes. -/
theorem Call.Punctual.mono {call : Call} (h : call.Punctual now deadline)
    (hle : now.nanos ≤ later.nanos) : call.Punctual later deadline := by
  have hwait {p : WaitPhase} {timeout : Option Duration} (h : p.Punctual now timeout deadline) :
      p.Punctual later timeout deadline := by
    cases p with
    | fallback p => exact FallbackWaitPhase.Punctual.mono h hle
    | _ => trivial
  cases call with
  | wait c l timeout p => exact hwait h
  | waitWhile c l timeout p =>
    cases p with
    | waiting start rest p => exact hwait h
    | _ => trivial
  | _ => trivial

end

/-! ## What a step makes of a machine

A step of the innermost call, put back into the machine: one lemma for each kind of result. -/

namespace Machine

variable {m : Machine} {t : Tid} {call call' : Call} {outer : List Call} {s : Store}
  {choice : Choice}

/-- A call that goes on is in its next phase. -/
theorem advance_of_next (hget : m.calls.get t = call :: outer)
    (hstep : call.step t choice m.store = .next s call') (hchild : call'.child? = none) :
    m.advance t choice =
      (⟨s, m.calls.set t (call' :: outer)⟩, if call'.atBody then .body else .working) := by
  simp only [advance, hget, hstep, hchild, adopt]

theorem advance_of_done {reply : Reply} (hget : m.calls.get t = call :: outer)
    (hstep : call.step t choice m.store = .done s reply) :
    m.advance t choice = (⟨s, m.calls.set t outer⟩, .replied reply) := by
  simp only [advance, hget, hstep]

theorem advance_of_fault {why : Panic} (hget : m.calls.get t = call :: outer)
    (hstep : call.step t choice m.store = .fault s why) :
    m.advance t choice = (⟨s, m.calls.set t outer⟩, .panicked why) := by
  simp only [advance, hget, hstep]

theorem advance_of_abort (hget : m.calls.get t = call :: outer)
    (hstep : call.step t choice m.store = .abort s) :
    m.advance t choice = (⟨s, m.calls.set t outer⟩, .aborted) := by
  simp only [advance, hget, hstep]

theorem advance_of_blocked (hget : m.calls.get t = call :: outer)
    (hstep : call.step t choice m.store = .blocked) : m.advance t choice = (m, .blocked) := by
  simp only [advance, hget, hstep]

/-- The step of a thread that is at a condition variable does not fail. -/
theorem Regular.step_ne_fault (hregular : m.Regular) {c : CondRef}
    (hroom : m.hasRoom c (.advance t choice) = true) (hplace : m.place c t ≠ .outside)
    (hget : m.calls.get t = call :: outer) :
    (∀ s why, call.step t choice m.store ≠ .fault s why) ∧
      ∀ s, call.step t choice m.store ≠ .abort s := by
  obtain ⟨hpanics, haborts⟩ := (hregular.orderly c).advance_succeeds hregular.identified
    hregular.holds hroom hplace
  constructor
  · intro s why hfault
    exact hpanics why (by rw [advance_of_fault hget hfault])
  · intro s habort
    exact haborts (by rw [advance_of_abort hget habort])

end Machine

/-! ## Two machines

`Agrees` is the relation that the twin keeps, and `Matched` says that it can keep it. Both speak of
a choice, for each condition variable, of the sleeper that a single wakeup on its way will wake; the
moves of the twin depend on it. -/

namespace Machine

/-- The twin `m'` belongs to machine `m`. Single wakeups that are on their way will wake the chosen
threads, and the twins of the sleepers have the given deadlines. -/
structure Agrees (chosen : CondRef → Option Tid) (deadline : Tid → Option Instant)
    (m m' : Machine) : Prop where
  store : m.store.Twin m.leaves m.pends chosen m'.store
  calls : ∀ t, m'.calls.get t =
    (m.calls.get t).map (Call.mirror (m.store.ids.own.get t) (deadline t))
  punctual : ∀ t call, m.call? t = some call → call.Punctual m.store.clock (deadline t)
  plain : ∀ t, ∀ call ∈ m.calls.get t, call.isOn .fallback = true

/-- The twin `m'` can show the given events and then belongs to machine `m`. -/
def Matched (chosen : CondRef → Option Tid) (m' : Machine) (events : List Shown) (m : Machine) :
    Prop :=
  ∃ deadline m'', m'.Goes events m'' ∧ m.Agrees chosen deadline m''

variable {m m' m'' : Machine} {chosen later : CondRef → Option Tid}
  {deadline : Tid → Option Instant} {t u : Tid} {call : Call} {outer stack : List Call} {s : Store}

/-- A step leaves alone the clock and the identities of other threads. -/
theorem kept_of_advance {choice : Choice} (hget : m.calls.get t = call :: outer)
    (hs : (m.advance t choice).1.store = s) :
    (∀ u, u ≠ t → s.ids.own.get u = m.store.ids.own.get u) ∧ s.clock = m.store.clock := by
  have hframe : (call.step t choice m.store).Keeps m.store.Frame := call.step_frame
  have hclock : (call.step t choice m.store).Keeps (·.clock = m.store.clock) :=
    hframe.imp fun _ hkept => hkept.clock
  rw [← hs, advance_store choice hget]
  exact ⟨call.step_own.storeFrom fun _ _ => rfl, hclock.storeFrom rfl⟩

theorem Agrees.matched (h : m.Agrees chosen deadline m') : Matched chosen m' [] m :=
  ⟨deadline, m', .refl m', h⟩

/-- In the beginning nothing has happened in either machine. -/
theorem agrees_initial (chosen : CondRef → Option Tid) :
    initial.Agrees chosen (fun _ => none) initial where
  store := ⟨⟨_, _, _, rfl⟩, fun _ _ => rfl, fun _ _ hleaves => (by cases hleaves), fun _ => .raw⟩
  calls _ := rfl
  punctual _ _ hcall := by cases hcall
  plain _ _ hcall := by cases hcall

namespace Agrees

/-- The innermost call of a thread of the twin is the twin of its innermost call. -/
theorem call? (h : m.Agrees chosen deadline m') (t : Tid) :
    m'.call? t = (m.call? t).map (Call.mirror (m.store.ids.own.get t) (deadline t)) := by
  rw [Machine.call?, Machine.call?, h.calls, List.head?_map]

theorem get (h : m.Agrees chosen deadline m') (hsound : m.Sound)
    (hget : m.calls.get t = call :: outer) :
    m'.calls.get t = call.mirror (m.store.ids.own.get t) (deadline t) :: outer := by
  rw [h.calls, hget, List.map_cons, Call.map_mirror (hsound.waiting t call outer hget)]

/-- The twin's condition variable, and who is in its queue. -/
theorem queue (h : m.Agrees chosen deadline m') {c : CondRef} {f : Fallback}
    (hcond : m.store.conds.get c = .fallback f) :
    ∃ q, m'.store.conds.get c = .native q ∧ q.waiters.Nodup ∧
      ∀ u k, (u, k) ∈ q.waiters ↔
        (m.pends u = some (c, k) ∧ chosen c ≠ some u) ∧ f.events.all = false := by
  have htwin := h.store.conds c
  rw [hcond] at htwin
  generalize m'.store.conds.get c = cond' at htwin
  cases htwin with
  | portable hnodup hmem => exact ⟨_, rfl, hnodup, hmem⟩

/-- The same threads are there, -/
theorem lives (h : m.Agrees chosen deadline m') (t : Tid) : m'.lives t = m.lives t := by
  obtain ⟨_, _, _, heq⟩ := h.store.rest
  rw [Machine.lives, Machine.lives, heq]

/-- the same threads run code of their clients', -/
theorem inClient (h : m.Agrees chosen deadline m') (t : Tid) : m'.inClient t = m.inClient t := by
  rw [Machine.inClient, Machine.inClient, h.lives, h.call?]
  cases m.call? t with
  | none => rfl
  | some call => rw [Option.map_some, Option.all_some, Option.all_some, Call.atBody_mirror]

/-- the same objects can be used, -/
theorem knows (h : m.Agrees chosen deadline m') (call : Call) : m'.knows call = m.knows call := by
  obtain ⟨_, _, _, heq⟩ := h.store.rest
  cases call <;> simp only [Machine.knows, Call.objects, heq]

/-- and the same objects are in use. -/
theorem unused (h : m.Agrees chosen deadline m') (o : Object) : m'.unused o = m.unused o := by
  obtain ⟨_, _, _, heq⟩ := h.store.rest
  have hparts : o.parts m'.store = o.parts m.store := by
    cases o <;> simp only [Object.parts, heq]
  have honces : m'.store.onces = m.store.onces := by rw [heq]
  simp only [Machine.unused, hparts, h.calls, List.all_map, Function.comp_def,
    Call.objects_mirror _ _ honces]
  rw [heq]

/-- Both machines change their stores and the calls of thread `t`. -/
theorem set (h : m.Agrees chosen deadline m') (ends : Option Instant)
    (hown : ∀ u, u ≠ t → s.ids.own.get u = m.store.ids.own.get u)
    (hclock : s.clock = m.store.clock)
    (hothers : ∀ u, u ≠ t → m''.calls.get u = m'.calls.get u)
    (hself : m''.calls.get t = stack.map (Call.mirror (s.ids.own.get t) ends))
    (hstore : s.Twin (Function.update m.leaves t ((stack.head?.map Call.leaves).getD none))
      (Function.update m.pends t ((stack.head?.map Call.pends).getD none)) later m''.store)
    (hpunctual : ∀ call, stack.head? = some call → call.Punctual s.clock ends)
    (hplain : ∀ call ∈ stack, call.isOn .fallback = true) :
    Agrees later (Function.update deadline t ends) ⟨s, m.calls.set t stack⟩ m'' := by
  -- what is seen of the threads changes at thread `t` only
  have hsee {β : Type} (f : Call → Option β) :
      see ⟨s, m.calls.set t stack⟩ f none =
        Function.update (m.see f none) t ((stack.head?.map f).getD none) := by
    funext u
    rw [see_set, Function.update_apply]
    rfl
  refine ⟨?_, ?_, ?_, ?_⟩
  · have hleaves : leaves ⟨s, m.calls.set t stack⟩ = _ := hsee Call.leaves
    have hpends : pends ⟨s, m.calls.set t stack⟩ = _ := hsee Call.pends
    rw [hleaves, hpends]
    exact hstore
  · intro u
    simp only [Table.get_set, Function.update_apply]
    split
    · subst u
      exact hself
    · rw [hothers u ‹_›, h.calls, hown u ‹_›]
  · intro u call hcall
    simp only [Machine.call?, Table.get_set] at hcall
    rw [Function.update_apply]
    split at hcall
    · subst u
      rw [if_pos rfl]
      exact hpunctual call hcall
    · rw [if_neg ‹_›, hclock]
      exact h.punctual u call hcall
  · intro u call hcall
    rw [Table.get_set] at hcall
    split at hcall
    · exact hplain call hcall
    · exact h.plain u call hcall

/-- Thread `t` takes a step in the first machine, and the twin follows. -/
theorem advance (h : m.Agrees chosen deadline m') (ends : Option Instant) {choice : Choice}
    {notice : Notice} (hget : m.calls.get t = call :: outer)
    (hadvance : m.advance t choice = (⟨s, m.calls.set t stack⟩, notice))
    (hgoes : m'.Goes (m.reports t notice) m'')
    (hothers : ∀ u, u ≠ t → m''.calls.get u = m'.calls.get u)
    (hself : m''.calls.get t = stack.map (Call.mirror (s.ids.own.get t) ends))
    (hstore : s.Twin (Function.update m.leaves t ((stack.head?.map Call.leaves).getD none))
      (Function.update m.pends t ((stack.head?.map Call.pends).getD none)) later m''.store)
    (hpunctual : ∀ call, stack.head? = some call → call.Punctual s.clock ends)
    (hplain : ∀ call ∈ stack, call.isOn .fallback = true) :
    Matched later m' (m.shows (.advance t choice)) (m.apply (.advance t choice)) := by
  obtain ⟨hown, hclock⟩ := kept_of_advance hget (congrArg (·.1.store) hadvance)
  simp only [shows, apply, hadvance]
  exact ⟨_, _, hgoes, h.set ends hown hclock hothers hself hstore hpunctual hplain⟩

end Agrees

end Machine

end Interlock
