import Interlock.Proofs.Sight
import Interlock.Proofs.Condition.Deadline

/-!
# How wake events release those that wait for them

The two flags of a pair of wake events are set, reset and consumed by many threads in any order,
and the sleepers are woken in a step of its own. Whatever the order, each set of `one` releases one
wait at most, and no sleeper is left asleep beside a flag that is set.

  * `ListenPhase.Finds`, `Run.ListenMove`: what a step of a wait finds, and `Run.EventsMove`: what a
    move does to a pair of wake events;
  * `Run.isSet_iff`: a flag is set when it was set some time ago and has not been cleared since;
  * `Run.exists_listened`: the beginning of a wait, where it computes its deadline;
  * `Run.Rouses`, `Run.waits_released`: what waits get.

A set raises the flag in one step and wakes the sleepers in another, so in between somebody can be
asleep beside a flag that is set. The invariant is that then the set is still on its way: no flag is
set, or nobody is asleep, or a thread is about to wake the sleepers.
-/

namespace Interlock

variable {e : EventsRef} {event : WakeEvent} {t u : Tid} {timeout : Option Duration} {s s' : Store}
  {choice : Choice} {call : Call}

/-! ## Steps

A wait for wake events has three phases: it begins, it looks, and it sleeps until it looks again.
`Finds` is one look with its outcome. Nothing depends on who was woken by whom: a sleeper that wakes
looks at the flags, and they decide. -/

theorem EventFlags.eq_clear {flags : EventFlags} (h : flags.take? = none) : flags = .clear := by
  rcases flags with ⟨_ | _, _ | _⟩ <;> first | rfl | cases h

/-- What a step of thread `t` waiting for pair `e` finds, and what comes of it. -/
inductive ListenPhase.Finds (t : Tid) (e : EventsRef) (timeout : Option Duration) (s : Store) :
    ListenPhase → Progress ListenPhase (Option WakeEvent) → Prop
  | begun : Finds t e timeout s begin (.next s (check (s.clock.deadline timeout)))
  | blocked {deadline : Option Instant} (hsleeps : t ∈ (s.events.get e).sleepers)
    (hdue : s.clock.reached deadline = false) : Finds t e timeout s (asleep deadline) .blocked
  | found {p : ListenPhase} {s' : Store} {event : WakeEvent} {flags : EventFlags}
    {sleepers : List Tid} (hp : p ≠ begin)
    (htake : (s.events.get e).flags.take? = some (event, flags))
    (hafter : s'.events.get e = ⟨flags, sleepers⟩)
    (hsleepers : sleepers ⊆ (s.events.get e).sleepers) :
    Finds t e timeout s p (.done s' (some event))
  | slept {p : ListenPhase} {s' : Store} {deadline : Option Instant}
    (hp : p = check deadline ∨ p = asleep deadline)
    (htake : (s.events.get e).flags.take? = none)
    (hafter : s'.events.get e = ⟨(s.events.get e).flags, (s.events.get e).sleepers ++ [t]⟩) :
    Finds t e timeout s p (.next s' (asleep deadline))
  | expired {s' : Store} {deadline : Option Instant} (hdue : s.clock.reached deadline = true)
    (htake : (s.events.get e).flags.take? = none)
    (hafter : s'.events.get e = ⟨(s.events.get e).flags, (s.events.get e).sleepers.erase t⟩) :
    Finds t e timeout s (asleep deadline) (.done s' none)

/-- Every step of a wait finds one of these. -/
theorem ListenPhase.step_finds (p : ListenPhase) :
    p.Finds t e timeout s (p.step t e timeout s) := by
  -- a look that may not time out: before the first sleep, and after a wakeup
  have hlook (deadline : Option Instant) (hp : p = check deadline ∨ p = asleep deadline) :
      p.Finds t e timeout s (look t e deadline false s) := by
    have hne : p ≠ begin := by rcases hp with rfl | rfl <;> simp
    unfold look
    dsimp only
    split
    · exact .found hne ‹_› (Table.get_set_self ..) (List.Subset.refl _)
    · exact .slept hp ‹_› (Table.get_set_self ..)
  cases p with
  | begin => exact .begun
  | check deadline => exact hlook deadline (.inl rfl)
  | asleep deadline =>
    simp only [step]
    split
    · exact hlook deadline (.inr rfl)
    · rename_i hsleeps
      split
      · rename_i hdue
        simp only [look, Store.setEvents, Table.get_set_self]
        split
        · exact .found (by simp) ‹_› (Table.get_set_self ..) List.erase_subset
        · exact .expired hdue ‹_› (Table.get_set_self ..)
      · rename_i hdue
        exact .blocked (Decidable.not_not.1 hsleeps) (by simpa using hdue)

/-- A step leaves a pair of wake events alone that its call does not work on. -/
theorem Call.step_other_events (h : call.events? ≠ some e) :
    (call.step t choice s).Keeps fun s' => s'.events.get e = s.events.get e := by
  cases hcall : call.events? with
  | none => exact (step_events hcall).imp fun _ hs => by rw [hs]
  | some e' =>
    have hne : e ≠ e' := by
      rintro rfl
      exact h hcall
    cases call with
    | setEvent e₀ event p =>
      cases hcall
      cases p <;> exact Table.get_set_of_ne _ _ hne
    | resetEvent e₀ event =>
      cases hcall
      exact Table.get_set_of_ne _ _ hne
    | listen e₀ timeout p =>
      cases hcall
      cases p <;> simp only [step, lift, ListenPhase.step, ListenPhase.look] <;>
        (repeat' split) <;> first
          | exact trivial
          | exact rfl
          | simp [Progress.within, Progress.Keeps, Progress.Meets, Store.setEvents,
              Table.get_set_of_ne, hne]
    | _ => cases hcall

/-- A client changes no wake events, and new ones are not set. -/
theorem Creation.events_cases (s : Store) (c : Creation) (e : EventsRef) :
    (c.apply s).events.get e = s.events.get e ∨
      e < (c.apply s).nextHandle ∧ s.nextHandle ≤ e ∧ (c.apply s).events.get e = .new := by
  cases c with
  | events =>
    simp only [apply, Store.addEvents, Store.takeHandle, Store.setEvents, Table.get_set]
    split
    · subst e
      exact .inr ⟨Nat.lt_succ_self _, Nat.le_refl _, rfl⟩
    · exact .inl rfl
  | semaphore permits =>
    simp only [apply, Store.addSemaphore?]
    cases permits.valid <;> exact .inl rfl
  | thread name stackSize =>
    obtain ⟨log, hreport⟩ := s.exists_reportName?_eq name
    simp only [apply, Store.addThread, hreport]
    exact .inl rfl
  | _ => exact .inl rfl

/-! ## Moves

The same for a move, with what everybody else may do to the pair. -/

namespace Run

variable {r : Run} {i j k : Nat} {notice : Notice}

/-- Wake events `e` before move `i`. -/
def events (r : Run) (e : EventsRef) (i : Nat) : WakeEvents := (r.state i).store.events.get e

/-- Nothing is set where no object has been created. -/
theorem events_of_unborn (h : (r.state i).store.nextHandle ≤ e) : r.events e i = .new := by
  induction i with
  | zero => rfl
  | succ i ih =>
    have hbefore : (r.state i).store.nextHandle ≤ e :=
      Nat.le_trans (r.state_change i).handles.1 h
    refine (store_kept (g := fun s => s.events.get e) ?_ ?_).trans (ih hbefore)
    · intro c hmove
      rcases c.events_cases (r.state i).store e with hsame | ⟨hlt, -⟩
      · exact hsame
      · rw [state_succ, hmove] at h
        exact absurd h (Nat.not_le.2 hlt)
    · intro t choice call hmove hcall
      apply Call.step_other_events
      intro hon
      have hknown := (r.state_sound i).known t call (Machine.mem_of_call? hcall)
      have hmem : .events e ∈ call.objects (r.state i).store := by
        cases call <;> cases hon <;> exact List.mem_singleton.2 rfl
      exact absurd hbefore (Nat.not_le.2 (Call.handle_lt_of_knows hknown hmem))

/-- What a step of thread `t`, in this phase of a wait for pair `e`, finds in move `i`, and what
its client is told. -/
inductive ListenMove (r : Run) (e : EventsRef) (t : Tid) (timeout : Option Duration) (i : Nat) :
    ListenPhase → Notice → Prop
  | begun (hsame : r.events e (i + 1) = r.events e i) :
    ListenMove r e t timeout i .begin .working
  | blocked {deadline : Option Instant} (hsleeps : t ∈ (r.events e i).sleepers)
    (hdue : (r.state i).store.clock.reached deadline = false)
    (hsame : r.events e (i + 1) = r.events e i) :
    ListenMove r e t timeout i (.asleep deadline) .blocked
  | found {p : ListenPhase} {event : WakeEvent} {flags : EventFlags} {sleepers : List Tid}
    (hp : p ≠ .begin) (htake : (r.events e i).flags.take? = some (event, flags))
    (hafter : r.events e (i + 1) = ⟨flags, sleepers⟩)
    (hsleepers : sleepers ⊆ (r.events e i).sleepers) :
    ListenMove r e t timeout i p (.replied (.event (some event)))
  | slept {p : ListenPhase} (hp : p ≠ .begin) (hclear : (r.events e i).flags = .clear)
    (hafter : r.events e (i + 1) = ⟨.clear, (r.events e i).sleepers ++ [t]⟩) :
    ListenMove r e t timeout i p .working
  | expired {deadline : Option Instant}
    (hdue : (r.state i).store.clock.reached deadline = true)
    (hclear : (r.events e i).flags = .clear)
    (hafter : r.events e (i + 1) = ⟨.clear, (r.events e i).sleepers.erase t⟩) :
    ListenMove r e t timeout i (.asleep deadline) (.replied (.event none))

/-- A step of a wait is one of these moves. -/
theorem Performs.listenMove {p : ListenPhase} (h : r.Performs t i (.listen e timeout p) notice) :
    r.ListenMove e t timeout i p notice := by
  obtain ⟨choice, hmove, hcall, rfl⟩ := h
  obtain ⟨-, hstore⟩ := performs_of_move hmove hcall
  rw [Machine.advance_notice hcall]
  have hfinds : p.Finds t e timeout (r.state i).store _ := p.step_finds
  simp only [Call.step, Call.lift] at hstore ⊢
  generalize p.step t e timeout (r.state i).store = q at hstore hfinds ⊢
  cases hfinds with
  | begun => exact .begun (by rw [events, hstore]; rfl)
  | blocked hsleeps hdue => exact .blocked hsleeps hdue (by rw [events, hstore]; rfl)
  | found hp htake hafter hsleepers =>
    exact .found hp htake (by rw [events, hstore]; exact hafter) hsleepers
  | slept hp htake hafter =>
    have hclear := EventFlags.eq_clear htake
    refine .slept ?_ hclear (by rw [events, hstore]; exact hclear ▸ hafter)
    rcases hp with rfl | rfl <;> simp
  | expired hdue htake hafter =>
    have hclear := EventFlags.eq_clear htake
    exact .expired hdue hclear (by rw [events, hstore]; exact hclear ▸ hafter)

/-- What move `i` does to wake events `e`. -/
inductive EventsMove (r : Run) (e : EventsRef) (i : Nat) : Prop
  | kept (hsame : r.events e (i + 1) = r.events e i)
    (hidle : ∀ t call notice, r.Performs t i call notice → call.events? ≠ some e)
  | set {t : Tid} {event : WakeEvent} (h : r.Performs t i (.setEvent e event .raise) .working)
    (hafter : r.events e (i + 1) =
      { r.events e i with flags := (r.events e i).flags.put true event })
    (hnotify : (r.state (i + 1)).call? t = some (.setEvent e event .notify))
  | notified {t : Tid} {event : WakeEvent}
    (h : r.Performs t i (.setEvent e event .notify) (.replied .nothing))
    (hafter : r.events e (i + 1) = { r.events e i with sleepers := [] })
  | reset {t : Tid} {event : WakeEvent}
    (h : r.Performs t i (.resetEvent e event) (.replied .nothing))
    (hafter : r.events e (i + 1) =
      { r.events e i with flags := (r.events e i).flags.put false event })
  | listened {t : Tid} {timeout : Option Duration} {p : ListenPhase} {notice : Notice}
    (h : r.Performs t i (.listen e timeout p) notice)
    (hlisten : r.ListenMove e t timeout i p notice)

/-- Every move does one of these things to a pair of wake events. -/
theorem eventsMove (r : Run) (e : EventsRef) (i : Nat) : r.EventsMove e i := by
  by_cases hstep : ∃ t call notice, r.Performs t i call notice ∧ call.events? = some e
  · obtain ⟨t, call, notice, ⟨choice, hmove, hcall, -⟩, hon⟩ := hstep
    obtain ⟨hperforms, hstore⟩ := performs_of_move hmove hcall
    obtain ⟨outer, hget⟩ := List.head?_eq_some_iff.1 hcall
    cases call with
    | setEvent e₀ event p =>
      cases hon
      cases p with
      | raise =>
        refine .set hperforms (by rw [events, hstore]; exact Table.get_set_self ..) ?_
        rw [state_succ, hmove]
        exact ((r.state_sound i).call?_of_next hget rfl).1
      | notify =>
        exact .notified hperforms (by rw [events, hstore]; exact Table.get_set_self ..)
    | resetEvent e₀ event =>
      cases hon
      exact .reset hperforms (by rw [events, hstore]; exact Table.get_set_self ..)
    | listen e₀ timeout p =>
      cases hon
      exact .listened hperforms hperforms.listenMove
    | _ => cases hon
  -- no call on `e` moves: what is left are creations and calls on other things
  · have hidle (t : Tid) (call : Call) (notice : Notice) (h : r.Performs t i call notice) :
        call.events? ≠ some e := fun hon => hstep ⟨t, call, notice, h, hon⟩
    refine .kept (store_kept (g := fun s => s.events.get e) ?_ ?_) hidle
    · intro c _
      rcases c.events_cases (r.state i).store e with hsame | ⟨-, hborn, hnew⟩
      · exact hsame
      · exact hnew.trans (events_of_unborn hborn).symm
    · intro t choice call hmove hcall
      exact Call.step_other_events (hidle t call _ (performs_of_move hmove hcall).1)

/-! ## What sets and clears a flag

A flag is the trace of the calls that set and clear it: setting makes it set, whatever it was, and
it stays so until it is reset or, if it is `one`, a wait consumes it. `isSet_iff` says this for any
moment, by induction over the moves. -/

section

variable (r : Run) (e : EventsRef)

/-- Somebody sets an event in move `i`. -/
def Sets (event : WakeEvent) (i : Nat) : Prop :=
  ∃ t notice, r.Performs t i (.setEvent e event .raise) notice

/-- A wait of thread `t` returns in move `i`, with this answer. -/
def Hears (answer : Option WakeEvent) (t : Tid) (timeout : Option Duration) (i : Nat) : Prop :=
  ∃ p, r.Performs t i (.listen e timeout p) (.replied (.event answer))

/-- An event is reset in move `i`, or consumed by a wait. -/
def Clears (event : WakeEvent) (i : Nat) : Prop :=
  (∃ t notice, r.Performs t i (.resetEvent e event) notice) ∨
    event = .one ∧ ∃ t timeout, r.Hears e (some .one) t timeout i

/-- Thread `t` looks at the flags in move `i`: its wait is past its first step, and not held up. -/
def Checks (t : Tid) (timeout : Option Duration) (i : Nat) : Prop :=
  ∃ p notice, p ≠ .begin ∧ notice ≠ .blocked ∧ r.Performs t i (.listen e timeout p) notice

/-- The set of event `one` in move `k` releases the wait that returns in move `i`: it is the last
one before, and nothing has cleared the event since. -/
structure Frees (k i : Nat) : Prop where
  before : k < i
  sets : r.Sets e .one k
  since : ∀ j, k < j → j < i → ¬ r.Sets e .one j ∧ ¬ r.Clears e .one j
  hears : ∃ t timeout, r.Hears e (some .one) t timeout i

/-- Before move `i` somebody has set an event, and not yet woken the sleepers. -/
def Notifying (i : Nat) : Prop :=
  ∃ t event, (r.state i).call? t = some (.setEvent e event .notify)

end

/-- Whether a move sets an event is told by its step. -/
theorem Performs.sets_iff (h : r.Performs t i call notice) :
    r.Sets e event i ↔ call = .setEvent e event .raise := by
  constructor
  · rintro ⟨u, notice', h'⟩
    exact (h.unique h').2.1
  · rintro rfl
    exact ⟨t, notice, h⟩

/-- Whether a wait returns in it, likewise. -/
theorem Performs.hears_iff {answer : Option WakeEvent} (h : r.Performs t i call notice) :
    r.Hears e answer u timeout i ↔
      t = u ∧ (∃ p, call = .listen e timeout p) ∧ notice = .replied (.event answer) := by
  constructor
  · rintro ⟨p, h'⟩
    obtain ⟨hthread, hcall, hnotice⟩ := h.unique h'
    exact ⟨hthread, ⟨p, hcall⟩, hnotice⟩
  · rintro ⟨rfl, ⟨p, rfl⟩, rfl⟩
    exact ⟨p, h⟩

/-- Whether it clears an event, likewise. -/
theorem Performs.clears_iff (h : r.Performs t i call notice) :
    r.Clears e event i ↔ call = .resetEvent e event ∨
      event = .one ∧ (∃ timeout p, call = .listen e timeout p) ∧
        notice = .replied (.event (some .one)) := by
  constructor
  · rintro (⟨u, notice', h'⟩ | ⟨hevent, u, timeout, hhears⟩)
    · exact .inl (h.unique h').2.1
    · obtain ⟨-, ⟨p, hcall⟩, hnotice⟩ := h.hears_iff.1 hhears
      exact .inr ⟨hevent, ⟨timeout, p, hcall⟩, hnotice⟩
  · rintro (rfl | ⟨hevent, ⟨timeout, p, hcall⟩, hnotice⟩)
    · exact .inl ⟨t, notice, h⟩
    · exact .inr ⟨hevent, t, timeout, h.hears_iff.2 ⟨rfl, ⟨p, hcall⟩, hnotice⟩⟩

/-- A move sets a flag, clears it, or leaves it. -/
theorem isSet_succ :
    (r.events e (i + 1)).flags.isSet event = true ↔
      r.Sets e event i ∨ (r.events e i).flags.isSet event = true ∧ ¬ r.Clears e event i := by
  cases r.eventsMove e i with
  | kept hsame hidle =>
    have hsets : ¬ r.Sets e event i := fun ⟨t, notice, h⟩ => hidle t _ notice h rfl
    have hclears : ¬ r.Clears e event i := by
      rintro (⟨t, notice, h⟩ | ⟨-, t, timeout, p, h⟩)
      · exact hidle t _ notice h rfl
      · exact hidle t _ _ h rfl
    simp [hsame, hsets, hclears]
  | set h hafter =>
    rw [h.sets_iff, h.clears_iff, hafter, EventFlags.isSet_put]
    split <;> rename_i heq
    · simp [heq]
    · simp [Ne.symm heq]
  | notified h hafter =>
    rw [h.sets_iff, h.clears_iff, hafter]
    simp
  | reset h hafter =>
    rw [h.sets_iff, h.clears_iff, hafter, EventFlags.isSet_put]
    split <;> rename_i heq
    · simp [heq]
    · simp [Ne.symm heq]
  | listened h hlisten =>
    rw [h.sets_iff, h.clears_iff]
    cases hlisten with
    | begun hsame => simp [hsame]
    | blocked hsleeps hdue hsame => simp [hsame]
    | found hp htake hafter =>
      rw [hafter]
      -- `one` is taken by the wait that sees it; `all` stays
      rcases (r.events e i).flags.take_cases with
        ⟨hone, heq⟩ | ⟨hone, hall, heq⟩ | ⟨-, -, heq⟩ <;> cases htake.symm.trans heq
      · cases event <;> simp [EventFlags.isSet]
      · simp
    | slept hp hclear hafter => simp [hafter, hclear]
    | expired hdue hclear hafter => simp [hafter, hclear]

/-- A flag is set when it was set some time ago, and nothing has set or cleared it since. -/
theorem isSet_iff :
    (r.events e i).flags.isSet event = true ↔ ∃ k < i, r.Sets e event k ∧
      ∀ j, k < j → j < i → ¬ r.Sets e event j ∧ ¬ r.Clears e event j := by
  -- on the time: the last step sets the flag, or it was set before and survives the step
  induction i with
  | zero =>
    refine iff_of_false ?_ (by simp)
    cases event <;> exact Bool.false_ne_true
  | succ i ih =>
    rw [isSet_succ, ih]
    constructor
    · intro h
      by_cases hsets : r.Sets e event i
      · exact ⟨i, Nat.lt_succ_self i, hsets, fun j hij hji => by omega⟩
      · obtain ⟨⟨k, hki, hset, hsince⟩, hclears⟩ := h.resolve_left hsets
        refine ⟨k, Nat.lt_succ_of_lt hki, hset, fun j hkj hji => ?_⟩
        rcases Nat.lt_or_eq_of_le (Nat.le_of_lt_succ hji) with hlt | rfl
        · exact hsince j hkj hlt
        · exact ⟨hsets, hclears⟩
    · rintro ⟨k, hki, hset, hsince⟩
      rcases Nat.lt_or_eq_of_le (Nat.le_of_lt_succ hki) with hlt | rfl
      · exact .inr ⟨⟨k, hlt, hset, fun j hkj hji => hsince j hkj (Nat.lt_succ_of_lt hji)⟩,
          (hsince i hlt (Nat.lt_succ_self i)).2⟩
      · exact .inl hset

/-! ## What a wait sees

A wait that times out has looked at the flags once more before it says so. Its deadline was computed
in its first step, which the induction of `exists_listened` finds again. -/

/-- A look at the flags returns with `one`, with `all`, or without an event, as the flags say; or
it puts its thread to sleep. -/
theorem Checks.cases (h : r.Checks e t timeout i) :
    (r.events e (i + 1)).flags = { (r.events e i).flags with one := false } ∧
      ((r.events e i).flags.one = true ∧ r.Hears e (some .one) t timeout i ∨
        ((r.events e i).flags.one = false ∧ (r.events e i).flags.all = true ∧
          r.Hears e (some .all) t timeout i) ∨
        (r.events e i).flags = .clear ∧
          (r.Hears e none t timeout i ∨ ∃ p, r.Performs t i (.listen e timeout p) .working)) := by
  obtain ⟨p, notice, hp, hnotice, h⟩ := h
  cases h.listenMove with
  | begun => exact absurd rfl hp
  | blocked => exact absurd rfl hnotice
  | found hp' htake hafter =>
    rw [hafter]
    -- event `one` is looked at before event `all`
    rcases (r.events e i).flags.take_cases with
      ⟨hone, heq⟩ | ⟨hone, hall, heq⟩ | ⟨-, -, heq⟩ <;> cases htake.symm.trans heq
    · exact ⟨rfl, .inl ⟨hone, p, h⟩⟩
    · refine ⟨?_, .inr (.inl ⟨hone, hall, p, h⟩)⟩
      rw [← hone]
  | slept hp' hclear hafter =>
    rw [hafter, hclear]
    exact ⟨rfl, .inr (.inr ⟨rfl, .inr ⟨p, h⟩⟩)⟩
  | expired hdue hclear hafter =>
    rw [hafter, hclear]
    exact ⟨rfl, .inr (.inr ⟨rfl, .inl ⟨_, h⟩⟩)⟩

/-- A wait is in its phase already, or its step leads there. -/
theorem listen_arises {p' : ListenPhase}
    (hcall : (r.state (i + 1)).call? t = some (.listen e timeout p')) (hp' : p' ≠ .begin) :
    (r.state i).call? t = some (.listen e timeout p') ∨
      ∃ p choice, r.move i = .advance t choice ∧
        (r.state i).call? t = some (.listen e timeout p) ∧
        p.step t e timeout (r.state i).store = .next (r.state (i + 1)).store p' := by
  cases (r.state_sound i).arises (r.state_allows i) hcall rfl with
  | idle hcall' => exact .inl hcall'
  | begun hmove hfresh => exact absurd (by simpa [Call.isFresh] using hfresh) hp'
  | @resumed _ call hmove hcall' hbody heq =>
    -- no wait runs code of the client's
    cases call <;> cases heq
    cases hbody
  | @next choice call hmove hcall' hstep =>
    have horigin := Call.origin_of_step hstep
    cases call <;> cases horigin
    obtain ⟨_, hp, heq⟩ := Progress.next_of_lift hstep
    cases heq
    exact .inr ⟨_, choice, hmove, hcall', hp⟩
  | born heq => cases heq

/-- A wait past its first step has begun some time ago, and has computed its deadline then. -/
theorem exists_listened {p : ListenPhase} {deadline : Option Instant}
    (hcall : (r.state i).call? t = some (.listen e timeout p))
    (hp : p = .check deadline ∨ p = .asleep deadline) :
    ∃ b < i, r.Performs t b (.listen e timeout .begin) .working ∧
      deadline = (r.state b).store.clock.deadline timeout ∧
      ∀ j, b < j → j ≤ i → ∃ q, q ≠ .begin ∧ (r.state j).call? t = some (.listen e timeout q) := by
  induction i generalizing p with
  | zero => cases hcall
  | succ i ih =>
    have hne : p ≠ .begin := by rcases hp with rfl | rfl <;> simp
    -- the wait goes on from an earlier phase with the same deadline
    have hlater {p₀ : ListenPhase} (hcall₀ : (r.state i).call? t = some (.listen e timeout p₀))
        (hp₀ : p₀ = .check deadline ∨ p₀ = .asleep deadline) :
        ∃ b < i + 1, r.Performs t b (.listen e timeout .begin) .working ∧
          deadline = (r.state b).store.clock.deadline timeout ∧ ∀ j, b < j → j ≤ i + 1 →
            ∃ q, q ≠ .begin ∧ (r.state j).call? t = some (.listen e timeout q) := by
      obtain ⟨b, hbi, hbegins, hdeadline, hsince⟩ := ih hcall₀ hp₀
      refine ⟨b, Nat.lt_succ_of_lt hbi, hbegins, hdeadline, fun j hbj hj => ?_⟩
      rcases Nat.lt_or_eq_of_le hj with hlt | rfl
      · exact hsince j hbj (Nat.le_of_lt_succ hlt)
      · exact ⟨p, hne, hcall⟩
    rcases listen_arises hcall hne with hcall₀ | ⟨p₀, choice, hmove, hcall₀, hstep⟩
    · exact hlater hcall₀ hp
    · have hfinds : p₀.Finds t e timeout (r.state i).store _ := p₀.step_finds
      rw [hstep] at hfinds
      generalize (r.state (i + 1)).store = s' at hfinds
      cases hfinds with
      | begun =>
        obtain ⟨outer, hget⟩ := List.head?_eq_some_iff.1 hcall₀
        obtain hp | hp := hp <;> cases hp
        refine ⟨i, Nat.lt_succ_self i, (performs_of_move hmove hcall₀).1, rfl, fun j hij hj => ?_⟩
        obtain rfl : j = i + 1 := Nat.le_antisymm hj hij
        exact ⟨_, hne, hcall⟩
      | slept hp₀ =>
        obtain hp | hp := hp <;> cases hp
        exact hlater hcall₀ hp₀

/-- A wait that returns without an event had a timeout, and that is over. -/
theorem Hears.timed (h : r.Hears e none t timeout i) :
    ∃ d, timeout = some d ∧ ∃ b < i, r.Performs t b (.listen e timeout .begin) .working ∧
      (∀ j, b < j → j ≤ i →
        ∃ q, q ≠ .begin ∧ (r.state j).call? t = some (.listen e timeout q)) ∧
      (r.state b).store.clock.nanos + d.nanos ≤ (r.state i).store.clock.nanos := by
  obtain ⟨p, h⟩ := h
  cases h.listenMove with
  | expired hdue =>
    obtain ⟨choice, hmove, hcall, -⟩ := h
    obtain ⟨b, hbi, hbegins, hdeadline, hsince⟩ := exists_listened hcall (.inr rfl)
    subst hdeadline
    cases timeout with
    | none => cases hdue
    | some d =>
      rw [Instant.deadline_some] at hdue
      -- a wait whose deadline cannot be told has none
      cases hadd : (r.state b).store.clock.add? d with
      | none =>
        rw [hadd] at hdue
        cases hdue
      | some due =>
        rw [hadd] at hdue
        have hreached : due.nanos ≤ (r.state i).store.clock.nanos := of_decide_eq_true hdue
        refine ⟨d, rfl, b, hbi, hbegins, hsince, ?_⟩
        rwa [← Instant.add?_nanos hadd]

/-! ## No sleeper is forgotten

Setting an event and waking the sleepers are two steps, so there are moments at which a flag is set
and somebody sleeps. Then the second step is still to come. -/

/-- A notification is pending until its thread sends it. -/
theorem Notifying.succ (h : r.Notifying e i)
    (hothers : ∀ t event notice, ¬ r.Performs t i (.setEvent e event .notify) notice) :
    r.Notifying e (i + 1) := by
  obtain ⟨t, event, hcall⟩ := h
  obtain ⟨outer, hget⟩ := List.head?_eq_some_iff.1 hcall
  have hget' := (r.state_change i).calls_kept (r.state_sound i) hget rfl fun choice hmove =>
    hothers t event _ (performs_of_move hmove hcall).1
  exact ⟨t, event, Machine.call?_of_get hget'⟩

/-- While an event is set, nobody sleeps or the sleepers are about to be woken. -/
theorem clear_or_attended :
    (r.events e i).flags = .clear ∨ (r.events e i).sleepers = [] ∨ r.Notifying e i := by
  induction i with
  | zero => exact .inl rfl
  | succ i ih =>
    -- a notification stays pending through the steps of other calls
    have hstays {t : Tid} {call : Call} {notice : Notice} (h : r.Performs t i call notice)
        (hcall : ∀ event, call ≠ .setEvent e event .notify) (hpending : r.Notifying e i) :
        r.Notifying e (i + 1) :=
      hpending.succ fun _ event _ h' => hcall event (h.unique h').2.1
    cases r.eventsMove e i with
    | kept hsame hidle =>
      rw [hsame]
      exact ih.imp_right (Or.imp_right fun hpending =>
        hpending.succ fun u event notice h => hidle u _ notice h rfl)
    | set h hafter hnotify => exact .inr (.inr ⟨_, _, hnotify⟩)
    | notified h hafter => exact .inr (.inl (by rw [hafter]))
    | @reset t event h hafter =>
      rw [hafter]
      rcases ih with hclear | hempty | hpending
      · exact .inl (by rw [hclear]; cases event <;> rfl)
      · exact .inr (.inl hempty)
      · exact .inr (.inr (hstays h (by simp) hpending))
    | listened h hlisten =>
      cases hlisten with
      | begun hsame =>
        rw [hsame]
        exact ih.imp_right (Or.imp_right (hstays h (by simp)))
      | blocked hsleeps hdue hsame =>
        rw [hsame]
        exact ih.imp_right (Or.imp_right (hstays h (by simp)))
      | found hp htake hafter hsleepers =>
        rcases ih with hclear | hempty | hpending
        · rw [hclear] at htake
          cases htake
        · rw [hempty] at hsleepers
          exact .inr (.inl (by rw [hafter]; exact List.subset_nil.1 hsleepers))
        · exact .inr (.inr (hstays h (by simp) hpending))
      | slept hp hclear hafter => exact .inl (by rw [hafter])
      | expired hdue hclear hafter => exact .inl (by rw [hafter])

/-! ## How waits are released

A set of `one` is consumed by the first wait that looks, and the flag is gone for the others; so two
waits that return with `one` have a set between them, and each of them has its own. -/

/-- How a pair of wake events releases those that wait for it. -/
structure Rouses (r : Run) (e : EventsRef) : Prop where
  /-- An event is set when a call has set it, and no call has set or cleared it since. -/
  set_iff : ∀ i event, (r.events e i).flags.isSet event = true ↔
    ∃ k < i, r.Sets e event k ∧
      ∀ j, k < j → j < i → ¬ r.Sets e event j ∧ ¬ r.Clears e event j
  /-- A wait returns with `one` because of a set of it, the last one before. -/
  freed : ∀ i t timeout, r.Hears e (some .one) t timeout i → ∃! k, r.Frees e k i
  /-- No set of `one` releases two waits. -/
  single : ∀ k i j, r.Frees e k i → r.Frees e k j → i = j
  /-- So between two waits that return with `one` there is a set of it. -/
  between : ∀ i j t u timeout timeout', i < j → r.Hears e (some .one) t timeout i →
    r.Hears e (some .one) u timeout' j → ∃ k, i < k ∧ k < j ∧ r.Sets e .one k
  /-- A wait returns at a look at the flags. -/
  checked : ∀ i answer t timeout, r.Hears e answer t timeout i → r.Checks e t timeout i
  /-- A look is put off only while its thread sleeps and its deadline has not come. -/
  blocked : ∀ i t timeout p, r.Performs t i (.listen e timeout p) .blocked →
    t ∈ (r.events e i).sleepers ∧
      ∃ deadline, p = .asleep deadline ∧ (r.state i).store.clock.reached deadline = false
  one : ∀ i t timeout, r.Checks e t timeout i →
    (r.Hears e (some .one) t timeout i ↔ (r.events e i).flags.one = true)
  all : ∀ i t timeout, r.Checks e t timeout i → (r.Hears e (some .all) t timeout i ↔
    (r.events e i).flags.one = false ∧ (r.events e i).flags.all = true)
  /-- A look leaves `one` unset, and `all` as it was. -/
  spent : ∀ i t timeout, r.Checks e t timeout i →
    (r.events e (i + 1)).flags = { (r.events e i).flags with one := false }
  /-- A wait returns without an event only when nothing is set and its timeout is over. -/
  expired : ∀ i t timeout, r.Hears e none t timeout i → (r.events e i).flags = .clear ∧
    ∃ d, timeout = some d ∧ ∃ b < i, r.Performs t b (.listen e timeout .begin) .working ∧
      (∀ j, b < j → j ≤ i →
        ∃ q, q ≠ .begin ∧ (r.state j).call? t = some (.listen e timeout q)) ∧
      (r.state b).store.clock.nanos + d.nanos ≤ (r.state i).store.clock.nanos
  /-- Nobody sleeps while an event is set, but for those that are about to be woken and those that
  have been woken. -/
  attended : ∀ i t timeout deadline, ¬ r.Notifying e i →
    (r.state i).call? t = some (.listen e timeout (.asleep deadline)) →
    t ∈ (r.events e i).sleepers → (r.events e i).flags = .clear

/-- A wait returns at a look. -/
theorem Hears.checks {answer : Option WakeEvent} (h : r.Hears e answer t timeout i) :
    r.Checks e t timeout i := by
  obtain ⟨p, h⟩ := h
  refine ⟨p, _, ?_, by simp, h⟩
  cases h.listenMove with
  | found hp => exact hp
  | expired => simp

/-- In a move one wait returns, with one answer. -/
theorem Hears.unique {answer answer' : Option WakeEvent} {timeout' : Option Duration}
    (h : r.Hears e answer t timeout i) (h' : r.Hears e answer' u timeout' i) :
    answer = answer' := by
  obtain ⟨p, h⟩ := h
  cases (h.hears_iff.1 h').2.2
  rfl

/-- A look finds `one` where it is set. -/
theorem Checks.one_iff (h : r.Checks e t timeout i) :
    r.Hears e (some .one) t timeout i ↔ (r.events e i).flags.one = true := by
  rcases h.cases.2 with ⟨hone, hhears⟩ | ⟨hone, -, hhears⟩ | ⟨hclear, hhears | ⟨p, hsleeps⟩⟩
  · exact iff_of_true hhears hone
  · refine iff_of_false (fun h' => ?_) (by simp [hone])
    cases hhears.unique h'
  · refine iff_of_false (fun h' => ?_) (by simp [hclear, EventFlags.clear])
    cases hhears.unique h'
  · refine iff_of_false (fun h' => ?_) (by simp [hclear, EventFlags.clear])
    cases (hsleeps.hears_iff.1 h').2.2

/-- It finds `all` where that is set and `one` is not. -/
theorem Checks.all_iff (h : r.Checks e t timeout i) :
    r.Hears e (some .all) t timeout i ↔
      (r.events e i).flags.one = false ∧ (r.events e i).flags.all = true := by
  rcases h.cases.2 with ⟨hone, hhears⟩ | ⟨hone, hall, hhears⟩ | ⟨hclear, hhears | ⟨p, hsleeps⟩⟩
  · refine iff_of_false (fun h' => ?_) (by simp [hone])
    cases hhears.unique h'
  · exact iff_of_true hhears ⟨hone, hall⟩
  · refine iff_of_false (fun h' => ?_) (by simp [hclear, EventFlags.clear])
    cases hhears.unique h'
  · refine iff_of_false (fun h' => ?_) (by simp [hclear, EventFlags.clear])
    cases (hsleeps.hears_iff.1 h').2.2

/-- A wait that returns without an event has found nothing set. -/
theorem Hears.clear (h : r.Hears e none t timeout i) : (r.events e i).flags = .clear := by
  rcases h.checks.cases.2 with ⟨-, hhears⟩ | ⟨-, -, hhears⟩ | ⟨hclear, -⟩
  · cases h.unique hhears
  · cases h.unique hhears
  · exact hclear

theorem Hears.exists_frees (h : r.Hears e (some .one) t timeout i) : ∃ k, r.Frees e k i := by
  have hset : (r.events e i).flags.isSet .one = true := h.checks.one_iff.1 h
  obtain ⟨k, hki, hsets, hsince⟩ := isSet_iff.1 hset
  exact ⟨k, hki, hsets, hsince, t, timeout, h⟩

theorem Frees.unique (h : r.Frees e k i) (h' : r.Frees e j i) : k = j := by
  have hlater {k j : Nat} (h : r.Frees e k i) (h' : r.Frees e j i) : ¬ k < j :=
    fun hkj => (h.since j hkj h'.before).1 h'.sets
  exact Nat.le_antisymm (Nat.not_lt.1 (hlater h' h)) (Nat.not_lt.1 (hlater h h'))

/-- A wait that returns with `one` lies before every later set of what another one consumes. -/
theorem Frees.lt (h : r.Frees e k j) (hhears : r.Hears e (some .one) t timeout i) (hij : i < j) :
    i < k := by
  apply Nat.lt_of_not_le
  intro hki
  rcases Nat.lt_or_eq_of_le hki with hlt | rfl
  · exact (h.since i hlt hij).2 (.inr ⟨rfl, t, timeout, hhears⟩)
  · obtain ⟨u, notice, hsets⟩ := h.sets
    obtain ⟨p, hhears⟩ := hhears
    cases (hsets.unique hhears).2.1

/-- A set releases one wait. -/
theorem Frees.end_unique (h : r.Frees e k i) (h' : r.Frees e k j) : i = j := by
  have hlater {i j : Nat} (h : r.Frees e k i) (h' : r.Frees e k j) : ¬ i < j := by
    intro hij
    obtain ⟨t, timeout, hhears⟩ := h.hears
    exact absurd (h'.lt hhears hij) (Nat.not_lt.2 (Nat.le_of_lt h.before))
  exact Nat.le_antisymm (Nat.not_lt.1 (hlater h' h)) (Nat.not_lt.1 (hlater h h'))

/-- In every run, whatever other threads do to a pair of wake events, a wait for it is released as
the flags say when it looks at them: each set of `one` releases one wait at most, a wait returns
without an event only when nothing is set and its time is over, and no sleeper is forgotten. -/
theorem waits_released (r : Run) (e : EventsRef) : r.Rouses e where
  set_iff i event := isSet_iff
  freed i t timeout hhears := by
    obtain ⟨k, hfrees⟩ := hhears.exists_frees
    exact ⟨k, hfrees, fun j hfrees' => hfrees'.unique hfrees⟩
  single k i j hfrees hfrees' := hfrees.end_unique hfrees'
  between i j t u timeout timeout' hij hhears hhears' := by
    obtain ⟨k, hfrees⟩ := hhears'.exists_frees
    exact ⟨k, hfrees.lt hhears hij, hfrees.before, hfrees.sets⟩
  checked i answer t timeout hhears := hhears.checks
  blocked i t timeout p hperforms := by
    cases hperforms.listenMove with
    | blocked hsleeps hdue => exact ⟨hsleeps, _, rfl, hdue⟩
  one i t timeout hchecks := hchecks.one_iff
  all i t timeout hchecks := hchecks.all_iff
  spent i t timeout hchecks := hchecks.cases.1
  expired i t timeout hhears := ⟨hhears.clear, hhears.timed⟩
  attended i t timeout deadline hpending hcall hsleeps := by
    rcases r.clear_or_attended (e := e) (i := i) with hclear | hempty | hpending'
    · exact hclear
    · rw [hempty] at hsleeps
      cases hsleeps
    · exact absurd hpending' hpending

/-- Thread 1 sets `one` for thread 0, which sleeps, and thread 2 consumes it first. -/
def forestalled : Run :=
  ofList (.create .events :: .spawn 0 :: .spawn 0 :: .begin 0 (.listening 0 none) :: steps 0 2
    ++ .begin 1 (.setting 0 .one) :: steps 1 2
    ++ .begin 2 (.listening 0 none) :: steps 2 2
    ++ steps 0 1) (by decide +kernel)

/-- Thread 2 returns with the event, and thread 0 sleeps again. -/
theorem waits_released_forestalled :
    forestalled.Rouses 0 ∧ forestalled.Hears 0 (some .one) 2 none 11 ∧
      forestalled.events 0 13 = ⟨.clear, [0]⟩ :=
  ⟨waits_released forestalled 0, ⟨.check none, ⟨0, false⟩, rfl, by decide +kernel,
    by decide +kernel⟩, by decide +kernel⟩

end Run

end Interlock
