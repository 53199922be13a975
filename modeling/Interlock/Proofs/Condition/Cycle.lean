import Interlock.Proofs.Condition.Place
import Mathlib.Data.Finset.Card

/-!
# The cycle of a wakeup

The entry gate of a portable condition variable is closed by a thread that registers, or by a
wakeup. In the second case it is handed from the waking thread to the sleepers, and whoever leaves
last opens it again. `Stage` names the points of this cycle, and `Cycle` says what holds at each:
the gate, both events, the two fields of the word, and where every thread may be.

  * `Stage.Post`: the places that a thread may be in, by its role; and `Stage.Allows`: the stages
    that a role tells. Only few places depend on the stage;
  * `Cycle`: the invariant;
  * `Stage.Shift`: how the stage changes;
  * `Cycle.turn`: every turn of a thread keeps the invariant and shifts the stage. Each kind of turn
    has a lemma of its own;
  * `Cycle.not_fault`: no internal check can fail.
-/

namespace Interlock

/-! ## Places

Most places can be taken at any stage: a thread waits for the gate, sleeps, or has left for the
caller's mutex. The others belong to one stage each, and `role` tells them apart. The role forgets
which operation the thread is in: a wakeup and a sleeper that take back the same mode differ in
their places only. -/

/-- Whether a sleeper has registered and has not deregistered. -/
def FallbackWaitPhase.isRegistered : FallbackWaitPhase → Bool
  | handBack | unlocking _ | listen | parked _ | depart _ => true
  | _ => false

namespace Place

/-- Whether the thread is a registered sleeper. -/
def isRegistered : Place → Bool
  | waiting _ _ p => p.isRegistered
  | _ => false

/-- What a thread is to the others at its place. -/
inductive Role where
  /-- Nothing, so it may be there at any stage: it has not come to the gate, it sleeps, its wait
  has timed out, or it has left for the caller's mutex. -/
  | common
  /-- It has closed the gate, and nothing is published. -/
  | enters
  /-- It has published event `e` and not yet set it. -/
  | raises (e : WakeEvent)
  /-- It is the last sleeper, timed out, and waits for event `e`. -/
  | awaits (e : WakeEvent)
  /-- It was woken by event `e` and has not deregistered. -/
  | woken (e : WakeEvent)
  | lowers
  /-- It takes back what was published, by itself if it is in a wakeup. -/
  | retracts (own : Option WakeEvent)
  | reopens
  | nowhere
  deriving DecidableEq

def role : Place → Role
  | outside | waking _ .enter => .common
  | waking _ .publish => .enters
  | waking e .raise => .raises e
  | waking e .retract => .retracts (some e)
  | waking _ .reopen => .reopens
  | waking _ .entry | waking _ .notify => .nowhere
  | waiting _ _ p =>
    match p with
    | .enter | .unlocking _ | .listen | .parked _ | .depart none | .locking _ _ => .common
    | .register | .handBack => .enters
    | .depart (some e) => .woken e
    | .await e => .awaits e
    | .lower _ => .lowers
    | .retract _ => .retracts none
    | .reopen _ => .reopens

/-- Only a timed wait has a deadline, and only a timed wait ends without an event. -/
def Timely : Place → Prop
  | waiting _ d (.parked deadline) => deadline.isSome = true → d.isSome = true
  | waiting _ d (.depart w) | waiting _ d (.lower w) | waiting _ d (.retract w)
  | waiting _ d (.reopen w) | waiting _ d (.locking _ w) => w = none → d.isSome = true
  | waiting _ d (.await _) => d.isSome = true
  | _ => True

variable {p : Place} {e : WakeEvent}

/-- Only a wakeup sets an event. -/
theorem of_raises (h : p.role = .raises e) : p = .waking e .raise := by
  rcases p with _ | ⟨e', q⟩ | ⟨l, d, q⟩
  · cases h
  · cases q <;> cases h
    rfl
  · rcases q with _ | _ | _ | _ | _ | _ | ⟨_ | _⟩ | _ | _ | _ | _ | _ <;> cases h

/-- Only a departing sleeper was woken. -/
theorem of_woken (h : p.role = .woken e) : ∃ l d, p = .waiting l d (.depart (some e)) := by
  rcases p with _ | ⟨e', q⟩ | ⟨l, d, q⟩
  · cases h
  · cases q <;> cases h
  · rcases q with _ | _ | _ | _ | _ | _ | ⟨_ | _⟩ | _ | _ | _ | _ | _ <;> cases h
    exact ⟨l, d, rfl⟩

/-- Only a timed-out sleeper awaits an event. -/
theorem of_awaits (h : p.role = .awaits e) : ∃ l d, p = .waiting l d (.await e) := by
  rcases p with _ | ⟨e', q⟩ | ⟨l, d, q⟩
  · cases h
  · cases q <;> cases h
  · rcases q with _ | _ | _ | _ | _ | _ | ⟨_ | _⟩ | _ | _ | _ | _ | _ <;> cases h
    exact ⟨l, d, rfl⟩

theorem isRegistered_of_woken (h : p.role = .woken e) : p.isRegistered = true := by
  obtain ⟨l, d, rfl⟩ := of_woken h
  rfl

end Place

theorem Fallback.Turn.timely {f f' : Fallback} {p p' : Place} (h : f.Turn p f' p')
    (hp : p.Timely) : p'.Timely := by
  cases h <;> simp_all [Place.Timely]

/-! ## Stages

The cycle runs from `calm` through `entering` and back, if a thread registers. A wakeup goes on to
`announced` and `raised`. Then event `one` is consumed by one sleeper, which retires the wakeup with
the same store that takes it off the word (`consumed`), and event `all` is reset by the last sleeper
to leave (`lowering`). If nobody is left to consume the wakeup, whoever finds that out takes its
mode back (`retracting`). All of these end in `reopening`. -/

/-- The stages between one opening of the gate and the next. -/
inductive Stage where
  | calm
  /-- Thread `t` has closed the gate; it registers, or is about to publish a wakeup. -/
  | entering (t : Tid)
  /-- Thread `t` has published event `e` and not yet set it. If the last sleeper has left
  meanwhile, it waits for the event. -/
  | announced (e : WakeEvent) (t : Tid) (last : Option Tid)
  /-- Event `e` is set, and the waking thread is gone. -/
  | raised (e : WakeEvent) (last : Option Tid)
  /-- Sleeper `t` has consumed event `one`. -/
  | consumed (t : Tid)
  /-- Sleeper `t` is the last one of a broadcast and resets the event. -/
  | lowering (t : Tid)
  /-- Nobody is left, and thread `t` takes back the mode of event `e`. -/
  | retracting (e : WakeEvent) (t : Tid)
  /-- Nothing is published, and thread `t` opens the gate. -/
  | reopening (t : Tid)
  deriving DecidableEq

namespace Stage

def gate : Stage → Permits
  | calm => ⟨1, 1⟩
  | _ => ⟨0, 1⟩

def events : Stage → EventFlags
  | raised e _ => EventFlags.clear.put true e
  | lowering _ => ⟨false, true⟩
  | _ => .clear

def mode : Stage → Nat
  | announced e _ _ | raised e _ | retracting e _ => (Fallback.modeOf e).toNat
  | consumed _ => Fallback.modeOne.toNat
  | lowering _ => Fallback.modeAll.toNat
  | _ => 0

/-- What thread `u` may be. -/
def Post (u : Tid) (r : Place.Role) : Stage → Prop
  | calm => r = .common
  | entering t => if u = t then r = .enters else r = .common
  | announced e t last =>
    if u = t then r = .raises e else if last = some u then r = .awaits e else r = .common
  | raised e last =>
    if last = some u then r = .awaits e else r = .common ∨ e = .all ∧ r = .woken .all
  | consumed t => if u = t then r = .woken .one else r = .common
  | lowering t => if u = t then r = .lowers else r = .common
  | retracting e t =>
    if u = t then r = .retracts none ∨ r = .retracts (some e) else r = .common
  | reopening t => if u = t then r = .reopens else r = .common

/-- Whether anybody sleeps: a wakeup in progress has a last sleeper exactly when nobody else is
left, and whoever cleans up is alone. -/
def Crowd (crowd : Finset Tid) : Stage → Prop
  | announced _ t last => last ≠ some t ∧ (last = none ↔ crowd.Nonempty)
  | raised _ last => last = none ↔ crowd.Nonempty
  | lowering _ | retracting _ _ => crowd = ∅
  | _ => True

/-- How a turn of thread `t` that ends in a role may change the stage. -/
inductive Shift (t : Tid) : Stage → Place.Role → Stage → Prop
  | stay {st : Stage} {r : Place.Role} (hpost : st.Post t r) : Shift t st r st
  | enter : Shift t calm .enters (entering t)
  | handBack : Shift t (entering t) .common calm
  | publish {e : WakeEvent} : Shift t (entering t) (.raises e) (announced e t none)
  | publishAlone {e : WakeEvent} : Shift t (entering t) (.retracts (some e)) (retracting e t)
  | raise {e : WakeEvent} {last : Option Tid} (hlast : last ≠ some t) :
    Shift t (announced e t last) .common (raised e last)
  | leave {e : WakeEvent} {u : Tid} (hu : t ≠ u) :
    Shift t (announced e u none) (.awaits e) (announced e u (some t))
  | leaveRaised {e : WakeEvent} : Shift t (raised e none) (.awaits e) (raised e (some t))
  | consume : Shift t (raised .one none) (.woken .one) (consumed t)
  | departOne : Shift t (consumed t) .reopens (reopening t)
  | departAll : Shift t (raised .all none) .lowers (lowering t)
  | awaitOne : Shift t (raised .one (some t)) (.retracts none) (retracting .one t)
  | awaitAll : Shift t (raised .all (some t)) .lowers (lowering t)
  | lower : Shift t (lowering t) (.retracts none) (retracting .all t)
  | retract {e : WakeEvent} : Shift t (retracting e t) .reopens (reopening t)
  | reopen : Shift t (reopening t) .common calm

end Stage

/-- What holds at each stage. -/
structure Cycle (st : Stage) (f : Fallback) (place : Tid → Place) (crowd : Finset Tid) : Prop where
  gate : f.gate = st.gate
  events : f.events = st.events
  word : f.word.toNat = st.mode + crowd.card
  room : crowd.card < Fallback.sleepersLimit
  mem_crowd : ∀ u, u ∈ crowd ↔ (place u).isRegistered = true
  posts : ∀ u, st.Post u (place u).role
  timely : ∀ u, (place u).Timely
  last : st.Crowd crowd

/-- A condition variable begins calm, with everybody outside. -/
theorem Cycle.of_new {place : Tid → Place} {crowd : Finset Tid}
    (hplace : ∀ u, place u = .outside)
    (hmem : ∀ u, u ∈ crowd ↔ (place u).isRegistered = true) : Cycle .calm .new place crowd := by
  have hempty : crowd = ∅ := by
    ext u
    simp [hmem, hplace, Place.isRegistered]
  exact ⟨rfl, rfl, by rw [hempty]; rfl, by rw [hempty]; decide, hmem,
    fun u => by rw [hplace]; rfl, fun u => by rw [hplace]; trivial, trivial⟩

/-! ## The two fields of the word

The word is one number, and the code adds to it and subtracts from it as a whole. As long as the
sleepers are fewer than the limit, the mode sits above them untouched: a sum never carries into it,
and a difference never borrows from it. -/

namespace Fallback

/-- The two bits of the mode. -/
theorem modeOf_toNat (e : WakeEvent) :
    (modeOf e).toNat = 0x40000000 ∨ (modeOf e).toNat = 0x80000000 := by
  cases e
  · exact .inl rfl
  · exact .inr rfl

/-- The fields of a word whose sleepers fit into theirs. -/
theorem fields_of_word {word : UInt32} {mode n : Nat} (hword : word.toNat = mode + n)
    (hmode : mode = 0 ∨ mode = 0x40000000 ∨ mode = 0x80000000) (hn : n < sleepersLimit) :
    modeBits word = mode ∧ sleepersOf word = n := by
  unfold modeBits sleepersOf sleepersLimit at *
  rw [hword]
  -- each mode is a multiple of the limit
  rcases hmode with rfl | rfl | rfl <;> omega

end Fallback

theorem Stage.mode_cases (st : Stage) :
    st.mode = 0 ∨ st.mode = 0x40000000 ∨ st.mode = 0x80000000 := by
  cases st <;> simp only [mode, Fallback.modeOne, Fallback.modeAll] <;>
    first | exact .inl rfl | exact .inr (Fallback.modeOf_toNat _) | decide

namespace Cycle

variable {st st' : Stage} {f f' : Fallback} {place place' : Tid → Place}
  {crowd crowd' : Finset Tid} {t u : Tid} {p p' : Place}

theorem mode_eq (h : Cycle st f place crowd) : f.mode = st.mode :=
  (Fallback.fields_of_word h.word st.mode_cases h.room).1

theorem sleepers_eq (h : Cycle st f place crowd) : f.sleepers = crowd.card :=
  (Fallback.fields_of_word h.word st.mode_cases h.room).2

/-- A sleeper that deregisters takes one off the sleepers, and leaves the mode alone. -/
theorem word_leave (h : Cycle st f place crowd) (ht : t ∈ crowd) {w : Option WakeEvent}
    (hw : w ≠ some .one) :
    (f.without w).word.toNat = st.mode + (crowd.erase t).card := by
  have hword := h.word
  have hpos := Finset.card_pos.2 ⟨t, ht⟩
  have hshare : FallbackWaitPhase.share w = 1 := by
    rcases w with _ | _ | _ <;> first | rfl | exact absurd rfl hw
  rw [Finset.card_erase_of_mem ht]
  simp only [Fallback.without, hshare, UInt32.toNat_sub, UInt32.toNat_one]
  have := f.word.toNat_lt
  omega

/-- A sleeper that consumed event `one` takes the mode off too. -/
theorem word_leaveOne (h : Cycle (.consumed u) f place crowd) (ht : t ∈ crowd) :
    (f.without (some .one)).word.toNat = (crowd.erase t).card := by
  have hword := h.word
  have hpos := Finset.card_pos.2 ⟨t, ht⟩
  rw [Finset.card_erase_of_mem ht]
  simp only [Stage.mode] at hword
  have hshare : (FallbackWaitPhase.share (some .one)).toNat = Fallback.modeOne.toNat + 1 := rfl
  simp only [Fallback.without, UInt32.toNat_sub, hshare]
  have := f.word.toNat_lt
  have hone : Fallback.modeOne.toNat = 0x40000000 := rfl
  omega

theorem card_erase_lt (h : Cycle st f place crowd) :
    (crowd.erase t).card < Fallback.sleepersLimit :=
  Nat.lt_of_le_of_lt (Finset.card_le_card (Finset.erase_subset t crowd)) h.room

theorem fields_leave (h : Cycle st f place crowd) (ht : t ∈ crowd) {w : Option WakeEvent}
    (hw : w ≠ some .one) :
    (f.without w).mode = st.mode ∧ (f.without w).sleepers = (crowd.erase t).card :=
  Fallback.fields_of_word (h.word_leave ht hw) st.mode_cases h.card_erase_lt

theorem fields_leaveOne (h : Cycle (.consumed u) f place crowd) (ht : t ∈ crowd) :
    (f.without (some .one)).mode = 0 ∧
      (f.without (some .one)).sleepers = (crowd.erase t).card :=
  Fallback.fields_of_word (by rw [h.word_leaveOne ht, Nat.zero_add]) (.inl rfl) h.card_erase_lt

end Cycle

/-! ## Who is where

The posts of a stage are given thread by thread; read the other way round, most roles tell the stage
(`Post.allows`). This is how the case of a turn is settled: the place that the thread leaves names
the stage, and with it the word, the gate and the events. -/

namespace Stage

variable {st : Stage} {t u : Tid} {r : Place.Role} {e : WakeEvent}

/-- The stages at which a thread may have a role. -/
def Allows (u : Tid) (st : Stage) : Place.Role → Prop
  | .common => True
  | .enters => st = entering u
  | .raises e => ∃ last, st = announced e u last
  | .awaits e => (∃ t, u ≠ t ∧ st = announced e t (some u)) ∨ st = raised e (some u)
  | .woken .one => st = consumed u
  | .woken .all => ∃ last, st = raised .all last
  | .lowers => st = lowering u
  | .retracts own => ∃ e, st = retracting e u ∧ (own = none ∨ own = some e)
  | .reopens => st = reopening u
  | .nowhere => False

/-- A role tells the stage. -/
theorem Post.allows (h : st.Post u r) : st.Allows u r := by
  -- at most stages one thread, or two, are somewhere else than everybody
  have common (hr : r = .common) : st.Allows u r := hr ▸ trivial
  cases st <;> simp only [Post] at h
  case calm => exact common h
  case entering t =>
    split at h
    · exact h ▸ ‹u = t› ▸ rfl
    · exact common h
  case announced e t last =>
    (repeat' split at h)
    · exact h ▸ ‹u = t› ▸ ⟨last, rfl⟩
    · exact h ▸ ‹last = some u› ▸ .inl ⟨t, ‹¬ u = t›, rfl⟩
    · exact common h
  case raised e last =>
    split at h
    · exact h ▸ ‹last = some u› ▸ .inr rfl
    · rcases h with h | ⟨rfl, rfl⟩
      · exact common h
      · exact ⟨last, rfl⟩
  case consumed t =>
    split at h
    · exact h ▸ ‹u = t› ▸ rfl
    · exact common h
  case lowering t =>
    split at h
    · exact h ▸ ‹u = t› ▸ rfl
    · exact common h
  case retracting e t =>
    split at h
    · subst ‹u = t›
      rcases h with rfl | rfl
      · exact ⟨e, rfl, .inl rfl⟩
      · exact ⟨e, rfl, .inr rfl⟩
    · exact common h
  case reopening t =>
    split at h
    · exact h ▸ ‹u = t› ▸ rfl
    · exact common h

/-- A shift of the stage by one thread leaves what the others may be, but for sleepers that a
broadcast woke. -/
theorem Shift.post {st' : Stage} {r' : Place.Role} (h : st.Shift t r st') (hu : u ≠ t)
    (hpost : st.Post u r') (hwoken : r' = .woken .all → ∀ t, st' ≠ .lowering t) :
    st'.Post u r' := by
  cases h <;> simp only [Post] at hpost ⊢ <;> grind

theorem Shift.self {st' : Stage} (h : st.Shift t r st') : st'.Post t r := by
  cases h <;> first | assumption | simp_all [Post]

end Stage

/-! ## No internal check fails

The code checks what it relies on: that the gate has room for its permit when it is opened, that the
word counts somebody when a sleeper leaves, that the event which the last sleeper consumes is the
one it waits for, and so on. Each check stands at a place whose stage says that it succeeds. -/

namespace EventFlags

theorem take?_put (e : WakeEvent) : ∃ flags, (clear.put true e).take? = some (e, flags) := by
  cases e <;> exact ⟨_, rfl⟩

end EventFlags

namespace Cycle

variable {st st' : Stage} {f f' : Fallback} {place place' : Tid → Place}
  {crowd crowd' : Finset Tid} {t u : Tid}

theorem post_of (h : Cycle st f place crowd) {p : Place} (hp : place t = p) :
    st.Post t p.role :=
  hp ▸ h.posts t

theorem mem_of (h : Cycle st f place crowd) {p : Place} (hp : place t = p)
    (hregistered : p.isRegistered = true) : t ∈ crowd :=
  (h.mem_crowd t).2 (hp ▸ hregistered)

/-- The event that the last sleeper waits for is the one that is set. -/
theorem raised_of_await (h : Cycle st f place crowd) {l : LockRef} {d : Option Duration}
    {e got : WakeEvent} {events : EventFlags} (hp : place t = .waiting l d (.await e))
    (hevents : f.events.take? = some (got, events)) : st = .raised e (some t) := by
  rcases (h.post_of hp).allows with ⟨u, -, rfl⟩ | rfl
  · rw [h.events] at hevents
    cases hevents
  · rfl

/-- No internal check fails, as long as a thread that registers finds room. -/
theorem not_fault (h : Cycle st f place crowd)
    (hroom : ∀ l d, place t = .waiting l d .register →
      crowd.card + 1 < Fallback.sleepersLimit) : ¬ f.Fault (place t) := by
  intro hfault
  generalize hp : place t = p at hfault
  have hpost := h.post_of hp
  -- each check compares the shared word, the gate or the events with what the stage says of them
  cases hfault with
  | wakeupOverlap hmode =>
    cases hpost.allows
    exact hmode h.mode_eq
  | overReopenAlone hgate =>
    cases hpost.allows
    rw [h.gate] at hgate
    cases hgate
  | registeredDuringWakeup hmode =>
    cases hpost.allows
    exact hmode h.mode_eq
  | tooManySleepers hfull =>
    rw [h.sleepers_eq] at hfull
    exact absurd (hroom _ _ hp) (by omega)
  | overHandBack hgate =>
    cases hpost.allows
    rw [h.gate] at hgate
    cases hgate
  | wrongSingleWakeup hmode =>
    cases hpost.allows
    exact hmode (h.fields_leaveOne (h.mem_of hp rfl)).1
  | unwoken d htimed =>
    have htimely := h.timely t
    rw [hp] at htimely
    rw [htimely rfl] at htimed
    cases htimed
  | wrongBroadcast hmode =>
    obtain ⟨last, rfl⟩ := hpost.allows
    exact hmode (h.fields_leave (h.mem_of hp rfl) (by decide)).1
  | @unexpectedEvent _ _ e got events hevents hgot =>
    obtain rfl := h.raised_of_await hp hevents
    obtain ⟨flags, hflags⟩ := EventFlags.take?_put e
    rw [h.events, Stage.events, hflags] at hevents
    cases hevents
    exact hgot rfl
  | overReopen hgate =>
    cases hpost.allows
    rw [h.gate] at hgate
    cases hgate

/-! ## Turns keep the invariant

A turn changes one place, the condition variable, and perhaps the stage. `shift` is the common part
of all turns; each turn then supplies the stage it leads to and the word, the gate and the events
there. The lemmas are grouped by who takes the turn, and `turn` puts them together. -/

/-- Thread `t` goes from place `p` to place `p'`, and nobody else moves; the registered sleepers are
`crowd'` then. -/
structure Walk (t : Tid) (p p' : Place) (place place' : Tid → Place) (crowd' : Finset Tid) :
    Prop where
  before : place t = p
  after : place' t = p'
  others : ∀ u, u ≠ t → place' u = place u
  crowd : ∀ u, u ∈ crowd' ↔ (place' u).isRegistered = true
  timely : p'.Timely

variable {p p' : Place}

/-- The registered sleepers after a turn of thread `t` that changes nothing about that. -/
theorem crowd_same (h : Cycle st f place crowd) (hwalk : Walk t p p' place place' crowd')
    (hp : p'.isRegistered = p.isRegistered) : crowd' = crowd := by
  ext u
  rw [hwalk.crowd, h.mem_crowd]
  by_cases hut : u = t
  · rw [hut, hwalk.before, hwalk.after, hp]
  · rw [hwalk.others u hut]

/-- A turn in which thread `t` registers. -/
theorem crowd_insert (h : Cycle st f place crowd) (hwalk : Walk t p p' place place' crowd')
    (hp' : p'.isRegistered = true) : crowd' = insert t crowd := by
  ext u
  rw [hwalk.crowd, Finset.mem_insert, h.mem_crowd]
  by_cases hut : u = t
  · simp [hut, hwalk.after, hp']
  · simp [hwalk.others u hut, hut]

/-- A turn in which thread `t` deregisters, or was not registered. -/
theorem crowd_erase (h : Cycle st f place crowd) (hwalk : Walk t p p' place place' crowd')
    (hp' : p'.isRegistered = false) : crowd' = crowd.erase t := by
  ext u
  rw [hwalk.crowd, Finset.mem_erase, h.mem_crowd]
  by_cases hut : u = t
  · simp [hut, hwalk.after, hp']
  · simp [hwalk.others u hut, hut]

/-- A turn that shifts the stage keeps the invariant, if the condition variable is as the new
stage says. -/
theorem shift (h : Cycle st f place crowd) (hwalk : Walk t p p' place place' crowd')
    (hshift : st.Shift t p'.role st')
    (hgate : f'.gate = st'.gate) (hevents : f'.events = st'.events)
    (hword : f'.word.toNat = st'.mode + crowd'.card)
    (hroom : crowd'.card < Fallback.sleepersLimit) (hlast : st'.Crowd crowd') :
    Cycle st' f' place' crowd' where
  gate := hgate
  events := hevents
  word := hword
  room := hroom
  mem_crowd := hwalk.crowd
  posts u := by
    by_cases hut : u = t
    · rw [hut, hwalk.after]
      exact hshift.self
    · rw [hwalk.others u hut]
      refine hshift.post hut (h.posts u) ?_
      -- nobody is registered when the event of a broadcast is reset
      rintro hwoken t' rfl
      have hu : u ∈ crowd' := by
        rw [hwalk.crowd, hwalk.others u hut]
        exact Place.isRegistered_of_woken hwoken
      rw [show crowd' = ∅ from hlast] at hu
      cases hu
  timely u := by
    by_cases hut : u = t
    · rw [hut, hwalk.after]
      exact hwalk.timely
    · rw [hwalk.others u hut]
      exact h.timely u
  last := hlast

/-- The gate can be closed only at the beginning of a cycle. -/
theorem calm_of_take (h : Cycle st f place crowd) {gate : Permits}
    (hgate : f.gate.take? = some gate) : st = .calm ∧ gate = ⟨0, 1⟩ := by
  rw [h.gate] at hgate
  cases st <;> cases hgate
  exact ⟨rfl, rfl⟩

/-- A parked sleeper is woken only by an event that is set for it. -/
theorem raised_of_take (h : Cycle st f place crowd) (ht : t ∈ crowd) {e : WakeEvent}
    {events : EventFlags} (hevents : f.events.take? = some (e, events)) :
    st = .raised e none ∧ events = ⟨false, e = .all⟩ := by
  rw [h.events] at hevents
  cases st with
  | raised e' last =>
    have hlast : last = none := h.last.2 ⟨t, ht⟩
    cases e' <;> cases hevents <;> exact ⟨by rw [hlast], rfl⟩
  | lowering u =>
    rw [show crowd = ∅ from h.last] at ht
    cases ht
  | _ => cases hevents

/-- Publishing adds the mode to a word without one. -/
theorem word_publish (h : Cycle (.entering u) f place crowd) (e : WakeEvent) :
    (f.word + Fallback.modeOf e).toNat = (Fallback.modeOf e).toNat + crowd.card := by
  have hword : f.word.toNat = 0 + crowd.card := h.word
  have hroom := h.room
  unfold Fallback.sleepersLimit at hroom
  rw [UInt32.toNat_add]
  -- the sum stays below `2 ^ 32`
  rcases Fallback.modeOf_toNat e with he | he <;> omega

/-- Registering adds one to a word without a mode. -/
theorem word_register (h : Cycle (.entering u) f place crowd) :
    (f.word + 1).toNat = crowd.card + 1 := by
  have hword : f.word.toNat = 0 + crowd.card := h.word
  have hroom := h.room
  unfold Fallback.sleepersLimit at hroom
  rw [UInt32.toNat_add, UInt32.toNat_one]
  omega

theorem modeOf_injective {e e' : WakeEvent}
    (h : (Fallback.modeOf e).toNat = (Fallback.modeOf e').toNat) : e = e' := by
  cases e <;> cases e' <;> first | rfl | exact absurd h (by decide)

theorem mem_of_consumed (h : Cycle (.consumed u) f place crowd) : u ∈ crowd := by
  have hpost : (place u).role = .woken .one := (if_pos rfl).mp (h.posts u)
  rw [h.mem_crowd]
  exact Place.isRegistered_of_woken hpost

/-- Whoever waits for the event after a timeout is alone. -/
theorem empty_of_last {e : WakeEvent} (h : Cycle (.raised e (some u)) f place crowd) :
    crowd = ∅ := by
  apply Finset.not_nonempty_iff_eq_empty.1
  intro hne
  cases h.last.2 hne

/-- A sleeper that leaves others behind, or leaves while nothing is published. -/
theorem crowd_leave (h : Cycle st f place crowd) (ht : t ∈ crowd)
    (hlast : ∀ e, st.mode = (Fallback.modeOf e).toNat → (crowd.erase t).card ≠ 0) :
    st.Crowd (crowd.erase t) := by
  have hnonempty (e : WakeEvent) (he : st.mode = (Fallback.modeOf e).toNat) :
      (crowd.erase t).Nonempty := Finset.card_pos.1 (Nat.pos_of_ne_zero (hlast e he))
  have hcrowd := h.last
  cases st with
  | announced e u last =>
    exact ⟨hcrowd.1, iff_of_true (hcrowd.2.2 ⟨t, ht⟩) (hnonempty e rfl)⟩
  | raised e last => exact iff_of_true (hcrowd.2 ⟨t, ht⟩) (hnonempty e rfl)
  | lowering u =>
    rw [show crowd = ∅ from hcrowd]
    rfl
  | retracting e u =>
    rw [show crowd = ∅ from hcrowd]
    rfl
  | _ => trivial

/-- The last sleeper of a wakeup in progress times out while nobody is woken. -/
theorem shift_leave (h : Cycle st f place crowd) (ht : t ∈ crowd) (hpost : st.Post t .common)
    {e : WakeEvent} (hmode : st.mode = (Fallback.modeOf e).toNat) (hlast : crowd.erase t = ∅) :
    ∃ st', st.Shift t (.awaits e) st' ∧ st'.gate = st.gate ∧ st'.events = st.events ∧
      st'.mode = st.mode ∧ st'.Crowd (crowd.erase t) := by
  have hcrowd := h.last
  have hempty : ¬ (crowd.erase t).Nonempty := by simp [hlast]
  have hzero : st.mode ≠ 0 := by
    rcases Fallback.modeOf_toNat e with he | he <;> rw [hmode, he] <;> decide
  cases st with
  | announced e' u last =>
    obtain rfl := modeOf_injective hmode
    obtain rfl : last = none := hcrowd.2.2 ⟨t, ht⟩
    have hu : t ≠ u := by
      rintro rfl
      simp [Stage.Post] at hpost
    exact ⟨_, .leave hu, rfl, rfl, rfl, by simpa using hu, iff_of_false (by simp) hempty⟩
  | raised e' last =>
    obtain rfl := modeOf_injective hmode
    obtain rfl : last = none := hcrowd.2 ⟨t, ht⟩
    exact ⟨_, .leaveRaised, rfl, rfl, rfl, iff_of_false (by simp) hempty⟩
  | consumed u =>
    -- the sleeper that consumed the event is still registered
    have hu : t ≠ u := by
      rintro rfl
      simp [Stage.Post] at hpost
    exact absurd ⟨u, Finset.mem_erase.2 ⟨hu.symm, h.mem_of_consumed⟩⟩ hempty
  | lowering u =>
    rw [show crowd = ∅ from hcrowd] at ht
    cases ht
  | retracting e' u =>
    rw [show crowd = ∅ from hcrowd] at ht
    cases ht
  | _ => exact absurd rfl hzero

/-- The invariant holds at the stage to which a turn of thread `t` shifts the cycle. -/
def Advances (st : Stage) (t : Tid) (r : Place.Role) (f : Fallback) (place : Tid → Place)
    (crowd : Finset Tid) : Prop :=
  ∃ st', st.Shift t r st' ∧ Cycle st' f place crowd

/-! ### A thread that nobody notices, and the gate

Turns that do not touch the word. -/

section

variable {l : LockRef} {d : Option Duration} {e : WakeEvent} {gate : Permits}
  {events : EventFlags}

/-- A turn that leaves the condition variable alone, between places of any stage. -/
theorem turn_idle (h : Cycle st f place crowd) (hwalk : Walk t p p' place place' crowd')
    (hrole : p'.role = p.role) (hp : p'.isRegistered = p.isRegistered) :
    Advances st t p'.role f place' crowd' := by
  have hstay : st.Shift t p'.role st := .stay (hrole ▸ h.post_of hwalk.before)
  cases h.crowd_same hwalk hp
  exact ⟨st, hstay, h.shift hwalk hstay h.gate h.events h.word h.room h.last⟩

/-- A thread closes the gate: everybody else is where any stage has them. -/
theorem turn_enter (h : Cycle st f place crowd) (hwalk : Walk t p p' place place' crowd')
    (hgate : f.gate.take? = some gate) (hrole : p'.role = .enters)
    (hp : p'.isRegistered = p.isRegistered) :
    Advances st t p'.role { f with gate := gate } place' crowd' := by
  obtain ⟨rfl, rfl⟩ := h.calm_of_take hgate
  have henter : Stage.Shift t .calm p'.role (.entering t) := hrole ▸ .enter
  cases h.crowd_same hwalk hp
  exact ⟨_, henter, h.shift hwalk henter rfl h.events h.word h.room trivial⟩

/-- A thread that has registered opens the gate. -/
theorem turn_handBack (h : Cycle st f place crowd)
    (hwalk : Walk t (.waiting l d .handBack) (.waiting l d (.unlocking .entry)) place place' crowd')
    (hgate : f.gate.put? = some gate) :
    Advances st t .common { f with gate := gate } place' crowd' := by
  cases (h.post_of hwalk.before).allows
  cases h.crowd_same hwalk rfl
  rw [h.gate] at hgate
  cases hgate
  exact ⟨_, .handBack, h.shift hwalk .handBack rfl h.events h.word h.room trivial⟩

/-- Whoever ends a wakeup opens the gate. -/
theorem turn_reopen (h : Cycle st f place crowd) (hwalk : Walk t p p' place place' crowd')
    (hgate : f.gate.put? = some gate) (hrole : p.role = .reopens) (hrole' : p'.role = .common)
    (hp : p'.isRegistered = p.isRegistered) :
    Advances st t p'.role { f with gate := gate } place' crowd' := by
  have hpost := h.post_of hwalk.before
  rw [hrole] at hpost
  cases hpost.allows
  have hreopen : Stage.Shift t (.reopening t) p'.role .calm := hrole' ▸ .reopen
  cases h.crowd_same hwalk hp
  rw [h.gate] at hgate
  cases hgate
  exact ⟨_, hreopen, h.shift hwalk hreopen rfl h.events h.word h.room trivial⟩

/-! ### A wakeup

Its thread has the gate from closing it to setting the event, and publishes between the two. -/

/-- A wakeup is published for the registered sleepers. -/
theorem turn_publish (h : Cycle st f place crowd)
    (hwalk : Walk t (.waking e .publish) (.waking e .raise) place place' crowd')
    (hsleepers : 0 < f.sleepers) :
    Advances st t (.raises e) { f with word := f.word + Fallback.modeOf e } place' crowd' := by
  cases (h.post_of hwalk.before).allows
  cases h.crowd_same hwalk rfl
  rw [h.sleepers_eq] at hsleepers
  have hcrowd : Stage.Crowd crowd (.announced e t none) :=
    ⟨by simp, iff_of_true rfl (Finset.card_pos.1 hsleepers)⟩
  exact ⟨_, .publish, h.shift hwalk .publish h.gate h.events (h.word_publish e) h.room hcrowd⟩

/-- A wakeup that finds nobody registered is taken back by its own thread. -/
theorem turn_publishAlone (h : Cycle st f place crowd)
    (hwalk : Walk t (.waking e .publish) (.waking e .retract) place place' crowd')
    (hsleepers : f.sleepers = 0) :
    Advances st t (.retracts (some e)) { f with word := f.word + Fallback.modeOf e } place'
      crowd' := by
  cases (h.post_of hwalk.before).allows
  cases h.crowd_same hwalk rfl
  rw [h.sleepers_eq] at hsleepers
  have hempty : crowd = ∅ := Finset.card_eq_zero.1 hsleepers
  exact ⟨_, .publishAlone,
    h.shift hwalk .publishAlone h.gate h.events (h.word_publish e) h.room hempty⟩

/-- The event is set, and the waking thread is gone; the gate stays closed. -/
theorem turn_raise (h : Cycle st f place crowd)
    (hwalk : Walk t (.waking e .raise) .outside place place' crowd') :
    Advances st t .common { f with events := f.events.put true e } place' crowd' := by
  obtain ⟨last, rfl⟩ := (h.post_of hwalk.before).allows
  cases h.crowd_same hwalk rfl
  have hraise : Stage.Shift t (.announced e t last) .common (.raised e last) := .raise h.last.1
  have hevents : f.events = .clear := h.events
  exact ⟨_, hraise, h.shift hwalk hraise h.gate (by rw [hevents]; rfl) h.word h.room h.last.2⟩

/-- The mode of a wakeup is taken off the word when nobody is left. -/
theorem turn_retract (h : Cycle st f place crowd) (hwalk : Walk t p p' place place' crowd')
    {own : Option WakeEvent} (hrole : p.role = .retracts own) (hrole' : p'.role = .reopens)
    (hp : p'.isRegistered = p.isRegistered) :
    Advances st t p'.role { f with word := Fallback.modeNone } place' crowd' := by
  have hpost := h.post_of hwalk.before
  rw [hrole] at hpost
  obtain ⟨e, rfl, -⟩ := hpost.allows
  have hretract : Stage.Shift t (.retracting e t) p'.role (.reopening t) := hrole' ▸ .retract
  cases h.crowd_same hwalk hp
  have hempty : crowd = ∅ := h.last
  exact ⟨_, hretract,
    h.shift hwalk hretract h.gate h.events (by rw [hempty]; rfl) h.room trivial⟩

/-! ### A sleeper

It registers before it sleeps and deregisters after, and in between it may be woken or time out.
Which of the two it was decides what it does when it is the last one to leave. -/

/-- A thread registers, if the word has room. -/
theorem turn_register (h : Cycle st f place crowd)
    (hwalk : Walk t (.waiting l d .register) (.waiting l d .handBack) place place' crowd')
    (hroom : crowd.card + 1 < Fallback.sleepersLimit) :
    Advances st t .enters { f with word := f.word + 1 } place' crowd' := by
  have hpost := h.post_of hwalk.before
  cases hpost.allows
  have ht : t ∉ crowd := by
    rw [h.mem_crowd, hwalk.before]
    exact Bool.false_ne_true
  have hcard : (insert t crowd).card = crowd.card + 1 := Finset.card_insert_of_notMem ht
  cases h.crowd_insert hwalk rfl
  refine ⟨_, .stay hpost, h.shift hwalk (.stay hpost) h.gate h.events ?_ ?_ trivial⟩
  · rw [h.word_register, hcard]
    exact (Nat.zero_add _).symm
  · rw [hcard]
    exact hroom

/-- A sleeper consumes the event: `one` is gone then, `all` stays for the others. -/
theorem turn_wake (h : Cycle st f place crowd) {deadline : Option Instant}
    (hwalk : Walk t (.waiting l d (.parked deadline)) (.waiting l d (.depart (some e))) place
      place' crowd') (hevents : f.events.take? = some (e, events)) :
    Advances st t (.woken e) { f with events := events } place' crowd' := by
  obtain ⟨rfl, rfl⟩ := h.raised_of_take (h.mem_of hwalk.before rfl) hevents
  cases h.crowd_same hwalk rfl
  cases e with
  | one => exact ⟨_, .consume, h.shift hwalk .consume h.gate rfl h.word h.room trivial⟩
  | all =>
    have hstay : Stage.Shift t (.raised .all none) (.woken .all) (.raised .all none) :=
      .stay (.inr ⟨rfl, rfl⟩)
    exact ⟨_, hstay, h.shift hwalk hstay h.gate rfl h.word h.room h.last⟩

/-- The sleeper that consumed event `one` takes itself and the mode off the word. -/
theorem turn_departOne (h : Cycle st f place crowd)
    (hwalk : Walk t (.waiting l d (.depart (some .one))) (.waiting l d (.reopen (some .one))) place
      place' crowd') :
    Advances st t .reopens (f.without (some .one)) place' crowd' := by
  cases (h.post_of hwalk.before).allows
  have hword := h.word_leaveOne (h.mem_of hwalk.before rfl)
  cases h.crowd_erase hwalk rfl
  refine ⟨_, .departOne, h.shift hwalk .departOne h.gate h.events ?_ h.card_erase_lt trivial⟩
  rw [hword]
  exact (Nat.zero_add _).symm

/-- A sleeper times out and is not the last one of a wakeup in progress. -/
theorem turn_departTimed (h : Cycle st f place crowd)
    (hwalk : Walk t (.waiting l d (.depart none)) (.waiting l d (.locking .entry none)) place place'
      crowd')
    (hlast : ∀ e, (f.without none).mode = (Fallback.modeOf e).toNat →
      (f.without none).sleepers ≠ 0) :
    Advances st t .common (f.without none) place' crowd' := by
  have hstay : st.Shift t .common st := .stay (h.post_of hwalk.before)
  have ht := h.mem_of hwalk.before rfl
  obtain ⟨hmode, hsleepers⟩ := h.fields_leave ht (w := none) (by simp)
  rw [hmode, hsleepers] at hlast
  cases h.crowd_erase hwalk rfl
  exact ⟨_, hstay, h.shift hwalk hstay h.gate h.events (h.word_leave ht (by simp)) h.card_erase_lt
    (h.crowd_leave ht hlast)⟩

/-- A sleeper times out as the last one of a wakeup in progress: the event is for nobody else
now. -/
theorem turn_departLast (h : Cycle st f place crowd)
    (hwalk : Walk t (.waiting l d (.depart none)) (.waiting l d (.await e)) place place' crowd')
    (hmode : (f.without none).mode = (Fallback.modeOf e).toNat)
    (hlast : (f.without none).sleepers = 0) :
    Advances st t (.awaits e) (f.without none) place' crowd' := by
  have hpost := h.post_of hwalk.before
  have ht := h.mem_of hwalk.before rfl
  obtain ⟨hmode', hsleepers⟩ := h.fields_leave ht (w := none) (by simp)
  rw [hmode'] at hmode
  rw [hsleepers, Finset.card_eq_zero] at hlast
  obtain ⟨st', hleave, hgate, hevents, hkeep, hcrowd⟩ := h.shift_leave ht hpost hmode hlast
  cases h.crowd_erase hwalk rfl
  exact ⟨_, hleave, h.shift hwalk hleave (hgate ▸ h.gate) (hevents ▸ h.events)
    (hkeep ▸ h.word_leave ht (by simp)) h.card_erase_lt hcrowd⟩

/-- While a sleeper that a broadcast woke is registered, nobody has been the last one to time
out. -/
theorem raised_of_departAll (h : Cycle st f place crowd)
    (hp : place t = .waiting l d (.depart (some .all))) : st = .raised .all none := by
  obtain ⟨last, rfl⟩ := (h.post_of hp).allows
  rw [show last = none from h.last.2 ⟨t, h.mem_of hp rfl⟩]

/-- A sleeper that a broadcast woke leaves others behind. -/
theorem turn_departAll (h : Cycle st f place crowd)
    (hwalk : Walk t (.waiting l d (.depart (some .all)))
      (.waiting l d (.locking .entry (some .all)))
      place place' crowd') (hlast : (f.without (some .all)).sleepers ≠ 0) :
    Advances st t .common (f.without (some .all)) place' crowd' := by
  have ht := h.mem_of hwalk.before rfl
  obtain rfl := h.raised_of_departAll hwalk.before
  have hstay : Stage.Shift t (.raised .all none) .common (.raised .all none) := .stay (.inl rfl)
  have hword := h.word_leave ht (w := some .all) (by decide)
  rw [(h.fields_leave ht (w := some .all) (by decide)).2] at hlast
  have hnonempty := Finset.card_pos.1 (Nat.pos_of_ne_zero hlast)
  cases h.crowd_erase hwalk rfl
  exact ⟨_, hstay, h.shift hwalk hstay h.gate h.events hword h.card_erase_lt
    (iff_of_true rfl hnonempty)⟩

/-- The last sleeper of a broadcast leaves. -/
theorem turn_departAllLast (h : Cycle st f place crowd)
    (hwalk : Walk t (.waiting l d (.depart (some .all))) (.waiting l d (.lower (some .all))) place
      place' crowd') (hlast : (f.without (some .all)).sleepers = 0) :
    Advances st t .lowers (f.without (some .all)) place' crowd' := by
  have ht := h.mem_of hwalk.before rfl
  obtain rfl := h.raised_of_departAll hwalk.before
  have hword := h.word_leave ht (w := some .all) (by decide)
  rw [(h.fields_leave ht (w := some .all) (by decide)).2, Finset.card_eq_zero] at hlast
  cases h.crowd_erase hwalk rfl
  exact ⟨_, .departAll, h.shift hwalk .departAll h.gate h.events hword h.card_erase_lt hlast⟩

/-! ### The last sleeper

It has timed out and could not leave, since the wakeup that was published for it would have had
nobody to end it. -/

/-- The last sleeper consumes event `one` for nobody. -/
theorem turn_awaitOne (h : Cycle st f place crowd)
    (hwalk : Walk t (.waiting l d (.await .one)) (.waiting l d (.retract none)) place place' crowd')
    (hevents : f.events.take? = some (.one, events)) :
    Advances st t (.retracts none) { f with events := events } place' crowd' := by
  obtain rfl := h.raised_of_await hwalk.before hevents
  cases h.crowd_same hwalk rfl
  have hempty := h.empty_of_last
  rw [h.events] at hevents
  cases hevents
  exact ⟨_, .awaitOne, h.shift hwalk .awaitOne h.gate rfl h.word h.room hempty⟩

/-- The last sleeper finds event `all` set. -/
theorem turn_awaitAll (h : Cycle st f place crowd)
    (hwalk : Walk t (.waiting l d (.await .all)) (.waiting l d (.lower none)) place place' crowd')
    (hevents : f.events.take? = some (.all, events)) :
    Advances st t .lowers { f with events := events } place' crowd' := by
  obtain rfl := h.raised_of_await hwalk.before hevents
  cases h.crowd_same hwalk rfl
  have hempty := h.empty_of_last
  rw [h.events] at hevents
  cases hevents
  exact ⟨_, .awaitAll, h.shift hwalk .awaitAll h.gate rfl h.word h.room hempty⟩

/-- The last sleeper of a broadcast resets the event. -/
theorem turn_lower (h : Cycle st f place crowd) {w : Option WakeEvent}
    (hwalk : Walk t (.waiting l d (.lower w)) (.waiting l d (.retract w)) place place' crowd') :
    Advances st t (.retracts none) { f with events := f.events.put false .all } place' crowd' := by
  cases (h.post_of hwalk.before).allows
  cases h.crowd_same hwalk rfl
  have hevents : f.events = ⟨false, true⟩ := h.events
  exact ⟨_, .lower, h.shift hwalk .lower h.gate (by rw [hevents]; rfl) h.word h.room h.last⟩

end

/-- Every turn of a thread keeps the invariant and shifts the stage. -/
theorem turn (h : Cycle st f place crowd) (hturn : f.Turn (place t) f' (place' t))
    (hothers : ∀ u, u ≠ t → place' u = place u)
    (hmem : ∀ u, u ∈ crowd' ↔ (place' u).isRegistered = true)
    (hroom : ∀ l d, place t = .waiting l d .register → place' t = .waiting l d .handBack →
      crowd.card + 1 < Fallback.sleepersLimit) :
    ∃ st', st.Shift t (place' t).role st' ∧ Cycle st' f' place' crowd' := by
  change Advances st t (place' t).role f' place' crowd'
  have htimely := hturn.timely (h.timely t)
  generalize hp : place t = p at hturn
  generalize hp' : place' t = p' at hturn htimely
  have hwalk : Walk t p p' place place' crowd' := ⟨hp, hp', hothers, hmem, htimely⟩
  -- turns that do the same to the cycle share a lemma, with the stage after them as its argument
  cases hturn with
  | idle | beginWakeup | beginWait | unlock | unlocked | listen | expire | lock | locked =>
    exact h.turn_idle hwalk rfl rfl
  | enterWakeup hgate | enterWait hgate => exact h.turn_enter hwalk hgate rfl rfl
  | handBack hgate => exact h.turn_handBack hwalk hgate
  | reopenAlone hgate | reopen hgate => exact h.turn_reopen hwalk hgate rfl rfl rfl
  | publish hmode hsleepers => exact h.turn_publish hwalk hsleepers
  | publishAlone hmode hsleepers => exact h.turn_publishAlone hwalk hsleepers
  | raise => exact h.turn_raise hwalk
  | retractAlone | retract => exact h.turn_retract hwalk rfl rfl rfl
  | register hmode hfull => exact h.turn_register hwalk (hroom _ _ hp hp')
  | wake hevents => exact h.turn_wake hwalk hevents
  | departOne hmode => exact h.turn_departOne hwalk
  | departTimed htimed hlast => exact h.turn_departTimed hwalk hlast
  | departLast hmode hlast => exact h.turn_departLast hwalk hmode hlast
  | departAll hmode hlast => exact h.turn_departAll hwalk hlast
  | departAllLast hmode hlast => exact h.turn_departAllLast hwalk hlast
  | awaitOne hevents => exact h.turn_awaitOne hwalk hevents
  | awaitAll hevents => exact h.turn_awaitAll hwalk hevents
  | lower => exact h.turn_lower hwalk

end Cycle

end Interlock
