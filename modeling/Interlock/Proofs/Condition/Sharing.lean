import Interlock.Proofs.Condition.Gate
import Interlock.Proofs.Condition.Queue
import Interlock.Proofs.Depth
import Interlock.Proofs.Exclusion

/-!
# Waiting for a condition misses no change

Threads share data under a mutex. Some wait while a condition on the data holds; others change the
data with the mutex held, and announce each change by a broadcast before they do anything that
could stop them. Then no waiter is left asleep whose condition has ceased to hold.

  * `Sharing`: the data over time, who changes them, and the conditions that are evaluated; and
    `Run.Shares`: the rules that the threads keep to;
  * `Sharing.Pending`: a broadcast is owed, on its way, or published;
  * `Run.Informed`: what a waiter can count on. Until it releases the mutex its condition holds, and
    from then on it holds or a broadcast is pending;
  * `Sharing.Stalled`: nobody can take a step, and `Run.no_missed_change`.

The crux is that nothing comes between the last evaluation of a condition and the moment from which
a broadcast counts. A portable sleeper registers before it releases its mutex, and the platform does
both in one step. So whoever changes the data afterwards has taken the mutex from a sleeper that its
broadcast will find. The backends differ only in what it means to be asleep and what it means for a
broadcast to be pending.
-/

namespace Interlock

/-! ## The release in the middle of a wait

A waiter is *early* from the evaluation of its condition to the release of the mutex, and *asleep*
from the release on until something wakes it. Between the two there is no gap: the step that ends
the first begins the second, and by then the thread is among the waiters (`Proceeds`). -/

/-- Whether a thread in a wait has not come to the release of its caller's mutex. -/
def NativeWaitPhase.isEarly : NativeWaitPhase → Bool
  | entry | check _ | disclaim _ | enqueue _ => true
  | _ => false

def FallbackWaitPhase.isEarly : FallbackWaitPhase → Bool
  | enter | register | handBack | unlocking _ => true
  | _ => false

def WaitPhase.isEarly : WaitPhase → Bool
  | entry | identify | check _ => true
  | native p => p.isEarly
  | fallback p => p.isEarly

/-- Whether a thread has found that its condition holds, and not yet released the mutex. -/
def WaitWhilePhase.isEarly : WaitWhilePhase → Bool
  | measure _ => true
  | waiting _ _ p => p.isEarly
  | _ => false

/-- Thread `t` has released its caller's mutex, and nothing has woken it. -/
def WaitPhase.Sleeps (s : Store) (c : CondRef) (t : Tid) : WaitPhase → Prop
  | native (.queued _ _) => s.Queued c t
  | fallback .listen | fallback (.parked _) => True
  | _ => False

def WaitWhilePhase.Sleeps (s : Store) (c : CondRef) (t : Tid) : WaitWhilePhase → Prop
  | waiting _ _ p => p.Sleeps s c t
  | _ => False

section

variable {t : Tid} {c : CondRef} {l : LockRef} {timeout : Option Duration} {s : Store}

/-- A native waiter is early until the platform takes it in. -/
theorem NativeWaitPhase.step_early (p : NativeWaitPhase) :
    (p.step t c l timeout s).Meets
      (fun s' p' => (p'.isEarly = true → p.isEarly = true) ∧
        ((WaitPhase.native p').Sleeps s' c t → p.isEarly = true ∧ ∃ me, p = .enqueue me))
      (fun _ _ => True) fun _ => True := by
  cases p with
  | enqueue me =>
    simp only [step, Store.withNative, Store.withLock]
    (repeat' split) <;> first | trivial | exact ⟨fun _ => rfl, fun _ => ⟨rfl, me, rfl⟩⟩
  | _ =>
    simp only [step, Store.violate, Store.withNative, Store.withLock]
    (repeat' split) <;> first
      | trivial
      | exact ⟨fun _ => rfl, False.elim⟩
      | exact ⟨fun h => (Bool.false_ne_true h).elim, False.elim⟩

theorem UnlockPhase.step_done (p : UnlockPhase) :
    (p.step t l s).Meets (fun _ _ => True) (fun _ _ => p = .release) fun _ => True := by
  cases p <;> simp only [step, Store.violate, Store.withLock] <;> (repeat' split) <;> trivial

/-- A portable one is early until it has unlocked the mutex, and has registered by then. -/
theorem FallbackWaitPhase.step_early (p : FallbackWaitPhase) :
    (p.step t c l timeout s).Meets
      (fun s' p' => (p'.isEarly = true → p.isEarly = true) ∧
        ((WaitPhase.fallback p').Sleeps s' c t → p = .listen ∨ p = .unlocking .release))
      (fun _ _ => True) fun _ => True := by
  cases p with
  | unlocking p =>
    refine p.step_done.within (fun _ _ _ => ⟨fun _ => rfl, False.elim⟩) ?_ fun _ _ => trivial
    rintro s' reply rfl
    exact ⟨fun _ => rfl, fun _ => .inr rfl⟩
  | locking p w =>
    exact Progress.Meets.within p.step_conds
      (fun _ _ _ => ⟨fun h => (Bool.false_ne_true h).elim, False.elim⟩) (fun _ _ _ => trivial)
      fun _ _ => trivial
  | listen => exact ⟨fun h => (Bool.false_ne_true h).elim, fun _ => .inl rfl⟩
  | _ =>
    simp only [step, Store.violate, Store.withFallback, afterDeparture]
    (repeat' split) <;> first
      | trivial
      | exact ⟨fun _ => rfl, False.elim⟩
      | exact ⟨fun h => (Bool.false_ne_true h).elim, False.elim⟩

/-- A thread that waits is early at first, and asleep from the release of the mutex on. -/
structure WaitWhilePhase.Proceeds (t : Tid) (c : CondRef) (l : LockRef) (s : Store)
    (p : WaitWhilePhase) (s' : Store) (p' : WaitWhilePhase) : Prop where
  early : p'.isEarly = true → p.isEarly = true
  asleep : p'.Sleeps s' c t → p.isEarly = true ∧ (p.part c).isUnchecked = true ∨
    p.Sleeps s c t ∧ (p.place l).isRegistered = true ∧ (p'.place l).isRegistered = true

/-- The same of a loop, whichever backend its waits use. -/
theorem WaitWhilePhase.step_proceeds (p : WaitWhilePhase) :
    (p.step t c l timeout s).Meets (fun s' p' => p.Proceeds t c l s s' p') (fun _ _ => True)
      fun _ => True := by
  cases p with
  | waiting start rest p =>
    -- most steps are those of a wait
    have hwait : (p.step t c l rest s).Meets
        (fun s' p' => (waiting start rest p).Proceeds t c l s s' (waiting start rest p'))
        (fun _ _ => True) fun _ => True := by
      cases p with
      | native p =>
        refine p.step_early.within (fun s' p' hs => ⟨hs.1, ?_⟩) (fun _ _ _ => trivial)
          fun _ _ => trivial
        intro hsleeps
        obtain ⟨hearly, me, rfl⟩ := hs.2 hsleeps
        exact .inl ⟨rfl, rfl⟩
      | fallback p =>
        refine p.step_early.within (fun s' p' hs => ⟨hs.1, ?_⟩) (fun _ _ _ => trivial)
          fun _ _ => trivial
        intro hsleeps
        rcases hs.2 hsleeps with rfl | rfl
        · refine .inr ⟨trivial, rfl, ?_⟩
          cases p' <;> first | rfl | exact hsleeps.elim
        · exact .inl ⟨rfl, rfl⟩
      | _ =>
        simp only [WaitPhase.step, Store.violate, Store.withLock]
        (repeat' split) <;> first | trivial | exact ⟨fun _ => rfl, False.elim⟩
    exact hwait.within (fun _ _ hs => hs)
      (fun _ _ _ => ⟨fun h => (Bool.false_ne_true h).elim, False.elim⟩) fun _ _ => trivial
  | _ =>
    simp only [step]
    (repeat' split) <;> first
      | trivial
      | exact ⟨fun _ => rfl, False.elim⟩
      | exact ⟨fun h => (Bool.false_ne_true h).elim, False.elim⟩

/-- Before the release a thread does not take the mutex. -/
theorem WaitWhilePhase.deed_of_isEarly {p : WaitWhilePhase} (h : p.isEarly = true) :
    (p.part c).deed l s ≠ .take := by
  cases p with
  | waiting start rest p =>
    cases p with
    | native p =>
      cases p <;> simp [isEarly, WaitPhase.isEarly, NativeWaitPhase.isEarly] at h <;>
        simp [part, WaitPhase.part, LockPart.deed, NativeWaitPhase.deed]
      split <;> simp
    | fallback p =>
      cases p <;> simp [isEarly, WaitPhase.isEarly, FallbackWaitPhase.isEarly] at h <;>
        simp [part, WaitPhase.part, FallbackWaitPhase.part, LockPart.deed]
      rename_i p
      cases p <;> simp [UnlockPhase.deed]
    | _ => simp [part, WaitPhase.part, LockPart.deed]
  | _ => simp [part, LockPart.deed]

end

/-! ## Calls that wait for nobody

Whoever has changed the data may give mutexes up before it broadcasts. It must not be stopped on the
way, or the change would never be announced; and giving up a mutex stops nobody. -/

/-- Whether a call is about to give a mutex up, or to install its thread's identity. -/
def Call.isPrompt : Call → Bool
  | unlock _ _ | scope _ (.unlocking _ _) | unlocked _ (.unlocking _) | install _ => true
  | _ => false

theorem Call.step_of_body {t : Tid} {choice : Choice} {s : Store} {call : Call}
    (h : call.atBody = true) : call.step t choice s = .blocked := by
  unfold atBody at h
  split at h <;> first | rfl | simp at h

/-- A prompt call goes on as one, or comes to its client's code. -/
theorem Call.isPrompt_next {t : Tid} {choice : Choice} {s s' : Store} {call call' : Call}
    (hstep : call.step t choice s = .next s' call') (h : call.isPrompt = true) :
    call'.isPrompt = true ∨ call'.atBody = true := by
  cases call <;> simp only [isPrompt, Bool.false_eq_true] at h
  case unlock l p =>
    obtain ⟨_, -, rfl⟩ := Progress.next_of_lift hstep
    exact .inl rfl
  case scope l p =>
    cases p with
    | unlocking p pending =>
      obtain ⟨_, hphase, rfl⟩ := Progress.next_of_lift hstep
      obtain ⟨_, -, rfl⟩ := Progress.next_of_passOn hphase
      exact .inl rfl
    | _ => simp at h
  case unlocked l p =>
    cases p with
    | unlocking p =>
      obtain ⟨_, hphase, rfl⟩ := Progress.next_of_lift hstep
      obtain ⟨_, -, rfl⟩ | ⟨_, _, -, hdone⟩ := Progress.next_of_within hphase
      · exact .inl rfl
      · cases hdone
        exact .inr rfl
    | _ => simp at h
  case install id =>
    simp only [step, single, installStep, Store.violate] at hstep
    split at hstep <;> cases hstep

/-- A whole is not blocked while the part it carries is not. -/
theorem Progress.Carries.ne_blocked {φ ψ ρ τ : Type} {p : Progress φ ρ} {q : Progress ψ τ}
    {wrap : φ → ψ} {pending : Option Panic} (h : q.Carries wrap (p.whileUnwinding pending))
    (hp : p ≠ .blocked) : q ≠ .blocked := by
  obtain ⟨finish, rfl, hfinish⟩ := h
  apply Progress.ne_blocked_of_within
  · unfold Progress.whileUnwinding
    split
    · cases p <;> first | exact hp | simp [Progress.orAbort]
    · exact hp
  · intro s reply hblocked
    exact (hblocked ▸ hfinish s reply : Progress.Leaves s .blocked)

namespace Machine

variable {m : Machine} {t : Tid} {l : LockRef} {call : Call}

/-- A thread in the code of unlocking can take a step. -/
theorem not_blocked_of_unlocking {p : UnlockPhase} {pending : Option Panic}
    (hids : m.Identified) (hholds : ∀ l, m.Holds l) (hcall : m.call? t = some call)
    (hpart : call.part l m.store = .unlocking p pending) (choice : Choice) :
    (m.advance t choice).2 ≠ .blocked := by
  intro hblocked
  obtain ⟨wrap, hcarries, -⟩ := Call.step_unlocking t choice hpart
  refine hcarries.ne_blocked ?_ (step_of_blocked hcall hblocked)
  have hfits := (hholds l).grips t
  obtain ⟨me, hknows, -⟩ := part_knows l t hids
  rw [part, see_of_call? hcall, hpart] at hknows
  generalize m.grip l t = g at hknows hfits
  cases hknows with
  | unlocking hbase => exact p.ne_blocked hbase hfits

/-- A thread in a prompt call can take a step. -/
theorem not_blocked_of_prompt (hids : m.Identified) (hholds : ∀ l, m.Holds l)
    (hcall : m.call? t = some call) (hprompt : call.isPrompt = true) (choice : Choice) :
    (m.advance t choice).2 ≠ .blocked := by
  unfold Call.isPrompt at hprompt
  split at hprompt
  · exact not_blocked_of_unlocking hids hholds hcall (if_pos rfl) choice
  · exact not_blocked_of_unlocking hids hholds hcall (if_pos rfl) choice
  · exact not_blocked_of_unlocking hids hholds hcall (if_pos rfl) choice
  · intro hblocked
    have hstep := step_of_blocked hcall hblocked
    simp only [Call.step, Call.single, installStep, Store.violate] at hstep
    split at hstep <;> cases hstep
  · cases hprompt

/-- A thread that is in a call, and not in its body, begins none and ends no body. -/
theorem not_client_of_call (hcall : m.call? t = some call) (hbody : call.atBody = false)
    {move : Move} (hallows : m.allows move = true) :
    (∀ call', move ≠ .begin t call') ∧ ∀ e, move ≠ .endBody t e := by
  constructor
  · rintro call' rfl
    simp [allows, inClient, hcall, hbody] at hallows
  · rintro e rfl
    simp [allows, hcall, hbody] at hallows

end Machine

/-! ## Shared data

The data are not part of the machine. They are given along the run, and `Shares` says which moves
may change them; any protocol of a client's is an instance. The rule about announcing is the usual
one, in its weakest form: between the change and the broadcast the thread does nothing that could
block. -/

/-- Data that threads share, told along a run: what the data are before each move, which thread
changes them in it, and which condition on them is evaluated in it. -/
structure Sharing (D : Type) where
  data : Nat → D
  writer : Nat → Option Tid
  cond : Nat → D → Bool

section

variable {D : Type} {S : Sharing D} {r : Run} {c : CondRef} {l : LockRef} {t u w : Tid} {i n : Nat}

/-- Thread `t` has changed the data before move `i`, and has not begun a broadcast since. -/
def Sharing.Owes (S : Sharing D) (r : Run) (c : CondRef) (t : Tid) (i : Nat) : Prop :=
  ∃ j, j < i ∧ S.writer j = some t ∧ ∀ k, j < k → k < i → r.move k ≠ .begin t (.waking c .all)

/-- The rules for data that are shared under mutex `l` and announced at condition variable `c`. -/
structure Run.Shares (r : Run) (c : CondRef) (l : LockRef) (S : Sharing D) : Prop where
  /-- An evaluation in a wait tells what the condition says of the data. -/
  judges : ∀ i t answer timeout start, r.move i = .endBody t (.returned answer) →
    (r.state i).call? t = some (.waitWhile c l timeout (.test start)) →
    answer.isYes = S.cond i (S.data i)
  /-- The data are changed by code of a client's that has the mutex, while no call takes a step. -/
  writes : ∀ i t, S.writer i = some t →
    r.move i = .tick 0 ∧ (r.state i).inClient t = true ∧ r.Has l t i
  unchanged : ∀ i, S.writer i = none → S.data (i + 1) = S.data i
  /-- Whoever has changed the data next begins a broadcast, but may give mutexes up before. -/
  announces : ∀ i t, S.Owes r c t i →
    (∀ call, r.move i = .begin t call → call = .waking c .all ∨ call.isPrompt = true) ∧
    (∀ e call, r.move i = .endBody t e → (r.state i).call? t = some call →
      (call.resume e).isPrompt = true) ∧
    ∀ ending, r.move i ≠ .exit t ending

/-- A broadcast is owed because of this move, or was owed before it. -/
theorem Sharing.Owes.of_succ (h : S.Owes r c t (i + 1)) :
    S.writer i = some t ∨ S.Owes r c t i ∧ r.move i ≠ .begin t (.waking c .all) := by
  obtain ⟨j, hji, hwriter, hquiet⟩ := h
  rcases Nat.lt_or_eq_of_le (Nat.le_of_lt_succ hji) with hji | rfl
  · exact .inr ⟨⟨j, hji, hwriter, fun k hjk hki => hquiet k hjk (Nat.lt_succ_of_lt hki)⟩,
      hquiet i hji (Nat.lt_succ_self i)⟩
  · exact .inl hwriter

/-- Whoever changes the data owes a broadcast. -/
theorem Sharing.Owes.of_writer (h : S.writer i = some t) : S.Owes r c t (i + 1) :=
  ⟨i, Nat.lt_succ_self i, h, fun _ hik hki => absurd hki (Nat.not_lt.2 hik)⟩

/-- It is owed until it is begun. -/
theorem Sharing.Owes.succ (h : S.Owes r c t i) (hmove : r.move i ≠ .begin t (.waking c .all)) :
    S.Owes r c t (i + 1) := by
  obtain ⟨j, hji, hwriter, hquiet⟩ := h
  refine ⟨j, Nat.lt_succ_of_lt hji, hwriter, ?_⟩
  intro k hjk hki
  rcases Nat.lt_or_eq_of_le (Nat.le_of_lt_succ hki) with hki | rfl
  · exact hquiet k hjk hki
  · exact hmove

namespace Run

theorem Shares.state_of_writer (h : r.Shares c l S) (hwriter : S.writer i = some t) :
    (r.state (i + 1)).calls = (r.state i).calls := by
  rw [state_succ, (h.writes i t hwriter).1]
  rfl

/-- Data change only in a move of their own. -/
theorem Shares.data_of_move (h : r.Shares c l S) (hmove : r.move i ≠ .tick 0) :
    S.data (i + 1) = S.data i := by
  apply h.unchanged
  rw [Option.eq_none_iff_forall_ne_some]
  intro t hwriter
  exact hmove (h.writes i t hwriter).1

/-- Only code of a client's changes the data. -/
theorem Shares.body_of_writer (h : r.Shares c l S) (hwriter : S.writer i = some t) {call : Call}
    (hcall : (r.state i).call? t = some call) : call.atBody = true := by
  have hclient := (h.writes i t hwriter).2.1
  simp only [Machine.inClient, hcall, Option.all_some, Bool.and_eq_true] at hclient
  exact hclient.2

/-- While a thread owes a broadcast, it is in no call that could wait for somebody. -/
theorem Shares.prompt (h : r.Shares c l S) {call : Call} (howes : S.Owes r c t i)
    (hcall : (r.state i).call? t = some call) (hbody : call.atBody = false) :
    call.isPrompt = true := by
  -- by induction on the moves: the debt begins in the client's code, and what is done until it is
  -- paid is prompt
  induction i generalizing call with
  | zero =>
    obtain ⟨j, hj, -⟩ := howes
    cases hj
  | succ i ih =>
    rcases howes.of_succ with hwriter | ⟨howes, hmove⟩
    · rw [Machine.call?, h.state_of_writer hwriter] at hcall
      have hclient := h.body_of_writer hwriter hcall
      simp [hbody] at hclient
    · obtain ⟨hbegins, hends, -⟩ := h.announces i t howes
      cases (r.state_sound i).arises (r.state_allows i) hcall hbody with
      | idle hcall' => exact ih howes hcall' hbody
      | begun hmove' =>
        rcases hbegins call hmove' with rfl | hprompt
        · exact absurd hmove' hmove
        · exact hprompt
      | resumed hmove' hcall' _ heq => exact heq ▸ hends _ _ hmove' hcall'
      | @next choice call' _ hcall' hstep =>
        have hbody' : call'.atBody = false := by
          rw [← Bool.not_eq_true]
          intro hbody'
          simp [Call.step_of_body hbody'] at hstep
        rcases Call.isPrompt_next hstep (ih howes hcall' hbody') with hprompt | hbody''
        · exact hprompt
        · simp [hbody] at hbody''
      | born heq => exact heq ▸ rfl

end Run

/-! ## Broadcasts on their way

Once it is begun a broadcast goes through its backend. On the platform it empties the queue in one
step. On the portable condition variable it waits for the gate, publishes its mode, and from then on
the word says that it is there, whoever's turn it is; so the last case of `Pending` is about the
state alone and survives the end of the broadcasting call. -/

/-- Whether a broadcast has not come to wake the waiters, on its way through a backend. -/
def WakeupPhase.isComing (backend : Option Backend) : WakeupPhase → Bool
  | entry => backend.isSome
  | notify => backend == some .native
  | enter | publish => backend == some .fallback
  | _ => false

/-- A broadcast goes on through its backend until it has emptied the platform's queue, or published
itself. It fails only where a wakeup is published already. -/
theorem WakeupPhase.step_coming {s : Store} (choice : Choice) {p : WakeupPhase}
    (h : p.isComing (s.conds.get c).backend? = true) :
    (p.step c .all choice s).Meets
      (fun _ p' => p'.isComing (s.conds.get c).backend? = true ∨
        (s.conds.get c).backend? = some .fallback ∧ (p' = .raise ∨ p' = .retract))
      (fun s' _ => s'.conds.get c = .native .empty)
      fun _ => ∃ f, s.conds.get c = .fallback f ∧ f.Fault (p.place .all) := by
  -- the backend of the condition variable tells the two ways apart
  cases hcond : s.conds.get c with
  | raw => cases p <;> simp [isComing, hcond, Condition.backend?] at h
  | native q =>
    cases p <;> simp [isComing, hcond, Condition.backend?] at h
    · simp only [step, hcond]
      exact .inl rfl
    · simp only [step, Store.withNative, hcond]
      exact Table.get_set_self _ _ _
  | fallback f =>
    cases p <;> simp [isComing, hcond, Condition.backend?] at h
    · simp only [step, hcond]
      exact .inl rfl
    · simp only [step, Store.withFallback, hcond]
      split
      · exact .inl rfl
      · trivial
    · simp only [step, Store.withFallback, hcond, Store.violate]
      split
      · exact ⟨f, rfl, .wakeupOverlap ‹_›⟩
      · split
        · exact .inr ⟨rfl, .inl rfl⟩
        · exact .inr ⟨rfl, .inr rfl⟩

/-- Everybody who sleeps at condition variable `c` is going to be woken: a thread is about to begin
a broadcast, or is on its way through one, or has published it. -/
inductive Sharing.Pending (S : Sharing D) (r : Run) (c : CondRef) (i : Nat) : Prop
  | owed {t : Tid} (howes : S.Owes r c t i)
  | coming {t : Tid} {p : WakeupPhase} (hcall : (r.state i).call? t = some (.wakeup c .all p))
    (hcoming : p.isComing ((r.state i).store.conds.get c).backend? = true)
  | published {f : Fallback} (hcond : (r.state i).store.conds.get c = .fallback f)
    (hmode : f.mode = Fallback.modeAll.toNat)

/-- Thread `w` is among the waiters of condition variable `c`. -/
def Machine.Waits (m : Machine) (c : CondRef) (w : Tid) : Backend → Prop
  | .native => m.store.Queued c w
  | .fallback => (m.place c w).isRegistered = true

/-- While somebody is registered, a published broadcast stays published. -/
theorem Stage.Shift.mode_all {st st' : Stage} {role : Place.Role} {crowd : Finset Tid}
    (h : st.Shift t role st') (hmode : st.mode = Fallback.modeAll.toNat)
    (hcrowd : st.Crowd crowd) (hne : crowd.Nonempty) : st'.mode = Fallback.modeAll.toNat := by
  cases h with
  | stay => exact hmode
  | raise => exact hmode
  | leave => exact hmode
  | leaveRaised => exact hmode
  | departAll => rfl
  | awaitAll => rfl
  | lower => rfl
  | retract =>
    obtain rfl : crowd = ∅ := hcrowd
    exact absurd hne (by simp)
  | _ => exact absurd hmode (by simp only [mode]; decide)

namespace Run

/-- Where somebody is registered the condition variable is portable and in order. -/
theorem backend_of_registered (hlimit : r.WithinLimit c)
    (h : ((r.state i).place c w).isRegistered = true) :
    ∃ st f, (r.state i).store.conds.get c = .fallback f ∧
      Cycle st f ((r.state i).place c) ((r.state i).registered c) := by
  have horderly := state_orderly hlimit i
  cases hcond : (r.state i).store.conds.get c with
  | fallback f =>
    obtain ⟨st, hcycle⟩ := horderly.portable f hcond
    exact ⟨st, f, rfl, hcycle⟩
  | _ =>
    have houtside := horderly.other (by simp [hcond]) w
    rw [houtside] at h
    cases h

/-- Where somebody waits the condition variable has that backend. -/
theorem backend_of_waits (hlimit : r.WithinLimit c) {backend : Backend}
    (h : (r.state i).Waits c w backend) :
    ((r.state i).store.conds.get c).backend? = some backend := by
  cases backend with
  | native =>
    obtain ⟨q, hq, -⟩ := h
    rw [hq]
    rfl
  | fallback =>
    obtain ⟨st, f, hf, -⟩ := backend_of_registered hlimit h
    rw [hf]
    rfl

/-- A published broadcast stays published while somebody is registered. -/
theorem published_succ (hlimit : r.WithinLimit c) {f : Fallback}
    (hwaits : ((r.state i).place c w).isRegistered = true)
    (hcond : (r.state i).store.conds.get c = .fallback f)
    (hmode : f.mode = Fallback.modeAll.toNat) : S.Pending r c (i + 1) := by
  obtain ⟨st, f₁, hcond₁, hcycle⟩ := backend_of_registered hlimit hwaits
  cases hcond.symm.trans hcond₁
  cases state_event hlimit i with
  | reset hplace =>
    rw [hplace] at hwaits
    cases hwaits
  | turn hcond₂ hcond' hturn hmover hothers =>
    cases hcond.symm.trans hcond₂
    obtain ⟨st', hshift, hcycle'⟩ := Machine.Event.turn_cycle (r.state_sound (i + 1)) hcycle hturn
      hmover hothers (hlimit i)
    have hne : ((r.state i).registered c).Nonempty :=
      ⟨w, (Machine.mem_registered (r.state_sound i)).2 hwaits⟩
    have hmode' := hshift.mode_all (hcycle.mode_eq.symm.trans hmode) hcycle.last hne
    exact .published hcond' (hcycle'.mode_eq.trans hmode')

/-- A thread that announces or retracts a broadcast stands at the stage that its place tells. -/
theorem published_of_place (hlimit : r.WithinLimit c)
    (hwaits : ((r.state i).place c w).isRegistered = true)
    (hplace : (r.state i).place c t = .waking .all .raise ∨
      (r.state i).place c t = .waking .all .retract) : S.Pending r c i := by
  obtain ⟨st, f, hcond, hcycle⟩ := backend_of_registered hlimit hwaits
  have hallows := (hcycle.posts t).allows
  rcases hplace with hplace | hplace <;> rw [hplace] at hallows
  · obtain ⟨last, rfl⟩ := hallows
    exact .published hcond hcycle.mode_eq
  · obtain ⟨e, rfl, -⟩ := hallows
    -- nobody is registered while a wakeup without sleepers is taken back
    have hempty : (r.state i).registered c = ∅ := hcycle.last
    have hmem := (Machine.mem_registered (r.state_sound i)).2 hwaits
    rw [hempty] at hmem
    cases hmem

/-- A broadcast on its way goes on while thread `w` waits. -/
theorem coming_succ (hlimit : r.WithinLimit c) {backend : Backend}
    (hwaits : (r.state i).Waits c w backend) (hwaits' : (r.state (i + 1)).Waits c w backend)
    {p : WakeupPhase} (hcall : (r.state i).call? t = some (.wakeup c .all p))
    (hcoming : p.isComing ((r.state i).store.conds.get c).backend? = true) :
    S.Pending r c (i + 1) := by
  have hbackend := backend_of_waits hlimit hwaits
  have hbackend' := backend_of_waits hlimit hwaits'
  obtain ⟨outer, hget⟩ := List.head?_eq_some_iff.1 hcall
  by_cases hmove : ∃ choice, r.move i = .advance t choice
  · obtain ⟨choice, hmove⟩ := hmove
    have hstate := state_of_advance hmove
    have hmeets := WakeupPhase.step_coming choice hcoming
    rw [hbackend] at hmeets
    -- no internal check fails
    have hsafe : ¬ ∃ f, (r.state i).store.conds.get c = .fallback f ∧ f.Fault (p.place .all) := by
      rintro ⟨f, hcond, hfault⟩
      refine absurd ?_ ((state_orderly hlimit i).not_fault (hlimit i) hmove hcond)
      rwa [Machine.place, Machine.see_of_call? hcall, Call.place, if_pos rfl]
    cases hstep : p.step c .all choice (r.state i).store with
    | next s' p' =>
      have hnext : (Call.wakeup c .all p).step t choice (r.state i).store =
          .next s' (.wakeup c .all p') := by
        rw [Call.step, hstep]
        rfl
      obtain ⟨hcall', -⟩ := (r.state_sound i).call?_of_next hget hnext
      rw [← hstate] at hcall'
      rw [hstep] at hmeets
      rcases hmeets with hcoming' | ⟨hfallback, hp'⟩
      · exact .coming hcall' (hbackend'.symm ▸ hcoming')
      · obtain rfl : backend = .fallback := Option.some.inj hfallback
        refine published_of_place (t := t) hlimit hwaits' ?_
        rw [Machine.place, Machine.see_of_call? hcall', Call.place, if_pos rfl]
        rcases hp' with rfl | rfl
        · exact .inl rfl
        · exact .inr rfl
    | done s' reply =>
      have hstore : (r.state (i + 1)).store = s' := by
        rw [hstate, Machine.advance_store choice hget, Call.step, hstep]
        rfl
      rw [hstep] at hmeets
      have hempty : s'.conds.get c = .native .empty := hmeets
      rw [hstore, hempty] at hbackend'
      obtain rfl : Backend.native = backend := Option.some.inj hbackend'
      obtain ⟨q, hq, hw⟩ := hwaits'
      rw [hstore, hempty] at hq
      cases hq
      cases hw
    | blocked =>
      have hsame : r.state (i + 1) = r.state i := by
        rw [hstate]
        simp only [Machine.advance, hget, Call.step, hstep, Call.lift, Progress.within]
      exact .coming (hsame.symm ▸ hcall) (hsame.symm ▸ hcoming)
    | fault s' why =>
      rw [hstep] at hmeets
      exact absurd hmeets hsafe
    | abort s' =>
      rw [hstep] at hmeets
      exact absurd hmeets hsafe
  · have hkept := (r.state_change i).calls_kept (r.state_sound i) hget rfl fun choice heq =>
      hmove ⟨choice, heq⟩
    exact .coming (Machine.call?_of_get hkept) (by rw [hbackend', ← hbackend]; exact hcoming)

/-- What is pending stays so while somebody waits for it. -/
theorem pending_succ (hlimit : r.WithinLimit c) {backend : Backend}
    (hwaits : (r.state i).Waits c w backend) (hwaits' : (r.state (i + 1)).Waits c w backend)
    (h : S.Pending r c i) : S.Pending r c (i + 1) := by
  cases h with
  | @owed t howes =>
    by_cases hmove : r.move i = .begin t (.waking c .all)
    · refine .coming (t := t) (p := .entry) ?_ ?_
      · rw [state_succ, hmove, Machine.call?, Machine.apply, Machine.begin, Table.get_set_self]
        rfl
      · rw [backend_of_waits hlimit hwaits']
        rfl
    · exact .owed (howes.succ hmove)
  | coming hcall hcoming => exact coming_succ hlimit hwaits hwaits' hcall hcoming
  | published hcond hmode =>
    have hbackend := backend_of_waits hlimit hwaits
    rw [hcond] at hbackend
    obtain rfl : Backend.fallback = backend := Option.some.inj hbackend
    exact published_succ hlimit hwaits hcond hmode

end Run

/-! ## What a waiter can count on

`Informed` is the invariant. It begins with the evaluation, where the condition holds and the mutex
is held, and each move keeps it: while the waiter is early nobody else has the mutex, so nobody
changes the data; and once it is asleep, a change makes a broadcast pending. -/

/-- In move `k` thread `w` has found that its condition holds, in a wait with mutex `l` that it is
still in before move `n` without having evaluated the condition again. -/
structure Run.Judged (r : Run) (c : CondRef) (l : LockRef) (w : Tid) (k n : Nat) : Prop where
  before : k < n
  move : r.move k = .endBody w (.returned .yes)
  call : ∃ timeout start, (r.state k).call? w = some (.waitWhile c l timeout (.test start))
  since : ∀ j, k < j → j < n → (∀ call, r.move j ≠ .begin w call) ∧ ∀ e, r.move j ≠ .endBody w e

/-- The evaluation stays the last one while the thread begins no call and ends no body. -/
theorem Run.Judged.succ {k : Nat} (h : r.Judged c l w k i)
    (hmove : (∀ call, r.move i ≠ .begin w call) ∧ ∀ e, r.move i ≠ .endBody w e) :
    r.Judged c l w k (i + 1) := by
  refine ⟨Nat.lt_succ_of_lt h.before, h.move, h.call, ?_⟩
  intro j hkj hji
  rcases Nat.lt_or_eq_of_le (Nat.le_of_lt_succ hji) with hji | rfl
  · exact h.since j hkj hji
  · exact hmove

/-- What thread `w` in phase `p` of its wait knows of the condition that it found to hold. -/
structure Run.Informed (r : Run) (S : Sharing D) (c : CondRef) (l : LockRef) (w : Tid)
    (p : WaitWhilePhase) (k i : Nat) : Prop where
  judged : r.Judged c l w k i
  /-- It holds as long as the thread has the mutex. -/
  early : p.isEarly = true → (r.state i).store.holder l = some w → S.cond k (S.data i) = true
  /-- It holds while the thread sleeps, or the thread is going to be woken. -/
  asleep : p.Sleeps (r.state i).store c w → S.cond k (S.data i) = true ∨ S.Pending r c i

namespace WaitWhilePhase

variable {p : WaitWhilePhase} {s : Store} {timeout : Option Duration}

theorem not_body (h : p.isEarly = true ∨ p.Sleeps s c t) :
    (Call.waitWhile c l timeout p).atBody = false := by
  cases p <;> first | rfl | exact (h.elim (fun h => by cases h) False.elim)

/-- A thread that sleeps waits in the platform's queue, or registered. -/
theorem Sleeps.kind (h : p.Sleeps s c t) :
    (∃ start rest me deadline, p = .waiting start rest (.native (.queued me deadline))) ∧
        s.Queued c t ∨
      (p.place l).isRegistered = true ∧ ∀ s', p.Sleeps s' c t := by
  cases p with
  | waiting start rest p =>
    cases p with
    | native p =>
      cases p <;> first | exact h.elim | exact .inl ⟨⟨_, _, _, _, rfl⟩, h⟩
    | fallback p =>
      cases p <;> first | exact h.elim | exact .inr ⟨rfl, fun _ => trivial⟩
    | _ => exact h.elim
  | _ => exact h.elim

end WaitWhilePhase

namespace Run

variable {p : WaitWhilePhase} {timeout : Option Duration} {k : Nat}

theorem place_of_call? (hcall : (r.state i).call? w = some (.waitWhile c l timeout p)) :
    (r.state i).place c w = p.place l := by
  rw [Machine.place, Machine.see_of_call? hcall, Call.place, if_pos rfl]

/-- A thread that stays asleep in the same phase waits all the time. -/
theorem waits_of_idle (hcall : (r.state i).call? w = some (.waitWhile c l timeout p))
    (hcall' : (r.state (i + 1)).call? w = some (.waitWhile c l timeout p))
    (hmove : (∀ choice, r.move i ≠ .advance w choice) ∨ r.state (i + 1) = r.state i)
    (hsleeps : p.Sleeps (r.state (i + 1)).store c w) :
    p.Sleeps (r.state i).store c w ∧
      ∃ backend, (r.state i).Waits c w backend ∧ (r.state (i + 1)).Waits c w backend := by
  rcases hsleeps.kind (l := l) with ⟨⟨start, rest, me, deadline, rfl⟩, hqueued'⟩ | ⟨hplace, hall⟩
  · have hqueued : (r.state i).store.Queued c w := by
      rcases hmove with hmove | hsame
      · exact (r.state_change i).queued hmove hqueued'
      · exact hsame ▸ hqueued'
    exact ⟨hqueued, .native, hqueued, hqueued'⟩
  · refine ⟨hall _, .fallback, ?_, ?_⟩
    · rw [Machine.Waits, place_of_call? hcall]
      exact hplace
    · rw [Machine.Waits, place_of_call? hcall']
      exact hplace

/-- A thread that is early holds the mutex only if it held it before. -/
theorem holder_of_early (hcall : (r.state i).call? w = some (.waitWhile c l timeout p))
    (hearly : p.isEarly = true) (hholder : (r.state (i + 1)).store.holder l = some w) :
    (r.state i).store.holder l = some w := by
  have hinit : (r.state (i + 1)).store.lock l ≠ none := by
    intro hnone
    simp [Store.holder, hnone] at hholder
  refine holder_of_succ hinit hholder ?_
  rintro ⟨choice, -, -, hdeed⟩
  rw [Machine.deed, Machine.part, Machine.see_of_call? hcall, Call.part, if_pos rfl] at hdeed
  exact WaitWhilePhase.deed_of_isEarly hearly hdeed

/-- The data do not change under a thread that waits and has the mutex. -/
theorem Shares.data_of_holder (h : r.Shares c l S) {call : Call}
    (hcall : (r.state i).call? w = some call) (hbody : call.atBody = false)
    (hholder : (r.state i).store.holder l = some w) : S.data (i + 1) = S.data i := by
  apply h.unchanged
  rw [Option.eq_none_iff_forall_ne_some]
  intro t hwriter
  have hhas := holder_iff_has.2 (h.writes i t hwriter).2.2
  obtain rfl : w = t := Option.some.inj (hholder.symm.trans hhas)
  have hclient := h.body_of_writer hwriter hcall
  simp [hbody] at hclient

/-- A condition that holds goes on to hold, or somebody owes a broadcast. -/
theorem Shares.cond_succ (h : r.Shares c l S) (hcond : S.cond k (S.data i) = true) :
    S.cond k (S.data (i + 1)) = true ∨ S.Pending r c (i + 1) := by
  cases hwriter : S.writer i with
  | none => exact .inl ((h.unchanged i hwriter).symm ▸ hcond)
  | some t => exact .inr (.owed (.of_writer hwriter))

/-- What a thread knows in a phase of its wait in which nothing happens to it. -/
theorem Informed.idle (h : r.Informed S c l w p k i) (hlimit : r.WithinLimit c)
    (hshares : r.Shares c l S)
    (hcall : (r.state i).call? w = some (.waitWhile c l timeout p))
    (hcall' : (r.state (i + 1)).call? w = some (.waitWhile c l timeout p))
    (hbody : (Call.waitWhile c l timeout p).atBody = false)
    (hmove : (∀ choice, r.move i ≠ .advance w choice) ∨ r.state (i + 1) = r.state i) :
    r.Informed S c l w p k (i + 1) where
  judged := h.judged.succ (Machine.not_client_of_call hcall hbody (r.state_allows i))
  early hearly hholder' := by
    have hholder := holder_of_early hcall hearly hholder'
    rw [hshares.data_of_holder hcall hbody hholder]
    exact h.early hearly hholder
  asleep hsleeps' := by
    obtain ⟨hsleeps, backend, hwaits, hwaits'⟩ := waits_of_idle hcall hcall' hmove hsleeps'
    rcases h.asleep hsleeps with hcond | hpending
    · exact hshares.cond_succ hcond
    · exact .inr (pending_succ hlimit hwaits hwaits' hpending)

/-- What a thread knows after a step of its own. The release of the mutex is the moment from which
on the condition may cease to hold. -/
theorem Informed.step {p' : WaitWhilePhase} (h : r.Informed S c l w p k i)
    (hlimit : r.WithinLimit c) (hshares : r.Shares c l S) {choice : Choice}
    (hmove : r.move i = .advance w choice)
    (hcall : (r.state i).call? w = some (.waitWhile c l timeout p))
    (hcall' : (r.state (i + 1)).call? w = some (.waitWhile c l timeout p'))
    (hbody : (Call.waitWhile c l timeout p).atBody = false)
    (hproceeds : p.Proceeds w c l (r.state i).store (r.state (i + 1)).store p') :
    r.Informed S c l w p' k (i + 1) where
  judged := h.judged.succ (Machine.not_client_of_call hcall hbody (r.state_allows i))
  early hearly' hholder' := by
    -- a loop that has its mutex had it before, so nobody has changed the data
    have hearly := hproceeds.early hearly'
    have hholder := holder_of_early hcall hearly hholder'
    rw [hshares.data_of_holder hcall hbody hholder]
    exact h.early hearly hholder
  asleep hsleeps' := by
    have hdata : S.data (i + 1) = S.data i := hshares.data_of_move (by simp [hmove])
    rw [hdata]
    rcases hproceeds.asleep hsleeps' with ⟨hearly, hunchecked⟩ | ⟨hsleeps, hplace, hplace'⟩
    · have hpart : ((r.state i).part l w).isUnchecked = true := by
        rw [Machine.part, Machine.see_of_call? hcall, Call.part, if_pos rfl]
        exact hunchecked
      exact .inl (h.early hearly
        (Machine.holder_of_unchecked (r.state_identified i) (r.state_holds l i) hpart))
    · refine (h.asleep hsleeps).imp_right fun hpending => ?_
      have hwaits : (r.state i).Waits c w .fallback := by
        rw [Machine.Waits, place_of_call? hcall]
        exact hplace
      have hwaits' : (r.state (i + 1)).Waits c w .fallback := by
        rw [Machine.Waits, place_of_call? hcall']
        exact hplace'
      exact pending_succ hlimit hwaits hwaits' hpending

/-- Whoever has just found that its condition holds is informed. -/
theorem Shares.informed_of_resume (h : r.Shares c l S) {e : BodyEnd} {call : Call}
    (hmove : r.move i = .endBody w e) (hcall : (r.state i).call? w = some call)
    (hbody : call.atBody = true) (heq : .waitWhile c l timeout p = call.resume e)
    (hp : p.isEarly = true ∨ p.Sleeps (r.state (i + 1)).store c w) :
    r.Informed S c l w p i (i + 1) := by
  obtain ⟨start, rfl, rfl⟩ : ∃ start, call = .waitWhile c l timeout (.test start) ∧
      p = (WaitWhilePhase.test start).resume e := by
    unfold Call.atBody at hbody
    split at hbody <;> simp only [Call.resume, Call.waitWhile.injEq, reduceCtorEq] at heq
    · obtain ⟨rfl, rfl, rfl, rfl⟩ := heq
      exact ⟨_, rfl, rfl⟩
    · simp at hbody
  -- a loop that has found its condition false is on its way out
  have hidle : ¬ ((WaitWhilePhase.met.isEarly = true ∨
      WaitWhilePhase.met.Sleeps (r.state (i + 1)).store c w)) := by
    simp [WaitWhilePhase.isEarly, WaitWhilePhase.Sleeps]
  rcases e with ⟨_ | error⟩ | why
  · refine ⟨⟨Nat.lt_succ_self i, hmove, ⟨timeout, start, hcall⟩, ?_⟩, ?_, False.elim⟩
    · intro j hij hji
      exact absurd hji (Nat.not_lt.2 hij)
    · intro _ _
      rw [h.data_of_move (by simp [hmove])]
      exact (h.judges i w .yes timeout start hmove hcall).symm
  · exact absurd hp hidle
  · exact absurd hp hidle

/-- Whoever has found that its condition holds and waits on, is informed. -/
theorem exists_informed (hlimit : r.WithinLimit c) (hshares : r.Shares c l S)
    (hcall : (r.state i).call? w = some (.waitWhile c l timeout p))
    (hp : p.isEarly = true ∨ p.Sleeps (r.state i).store c w) :
    ∃ k, r.Informed S c l w p k i := by
  -- what the thread knows goes back to the evaluation that found the condition to hold
  induction i generalizing p with
  | zero => cases hcall
  | succ i ih =>
    have hbody : (Call.waitWhile c l timeout p).atBody = false := WaitWhilePhase.not_body hp
    cases (r.state_sound i).arises (r.state_allows i) hcall hbody with
    | idle hbefore hmove =>
      have hp' : p.isEarly = true ∨ p.Sleeps (r.state i).store c w :=
        hp.imp_right fun hsleeps => (waits_of_idle hbefore hcall hmove hsleeps).1
      obtain ⟨k, hinformed⟩ := ih hbefore hp'
      exact ⟨k, hinformed.idle hlimit hshares hbefore hcall hbody hmove⟩
    | begun _ hfresh =>
      obtain rfl : p = .begin := by simpa [Call.isFresh] using hfresh
      exact hp.elim (fun h => by cases h) False.elim
    | resumed hmove hbefore hbody' heq =>
      exact ⟨i, hshares.informed_of_resume hmove hbefore hbody' heq hp⟩
    | @next choice call hmove hbefore hstep =>
      obtain ⟨p₀, rfl⟩ : ∃ p₀, call = .waitWhile c l timeout p₀ := by
        have horigin := Call.origin_of_step hstep
        cases call <;> cases horigin
        exact ⟨_, rfl⟩
      have hproceeds : p₀.Proceeds w c l (r.state i).store (r.state (i + 1)).store p := by
        have hmeets : (p₀.step w c l timeout (r.state i).store).Meets _ _ _ := p₀.step_proceeds
        simp only [Call.step, Call.lift] at hstep
        generalize p₀.step w c l timeout (r.state i).store = q at hstep hmeets
        cases q <;> cases hstep
        exact hmeets
      have hp₀ : p₀.isEarly = true ∨ p₀.Sleeps (r.state i).store c w := by
        rcases hp with hearly | hsleeps
        · exact .inl (hproceeds.early hearly)
        · exact (hproceeds.asleep hsleeps).imp (·.1) (·.1)
      obtain ⟨k, hinformed⟩ := ih hbefore hp₀
      exact ⟨k, hinformed.step hlimit hshares hmove hbefore hcall (WaitWhilePhase.not_body hp₀)
        hproceeds⟩
    | born heq => cases heq

end Run

/-! ## Where nobody can move

If nobody can move, no broadcast is on its way: one that is owed could be begun, one that has begun
is blocked at most by the gate, which would have to be closed, and one that is published has
somebody to wake. So a waiter that is still asleep has its condition as it found it. -/

/-- No thread can take a step before move `n`: each that is in a call is blocked, unless the call
runs code of its client's, and no such code has still to begin a broadcast. -/
structure Sharing.Stalled (S : Sharing D) (r : Run) (c : CondRef) (n : Nat) : Prop where
  blocked : ∀ t call, (r.state n).call? t = some call → call.atBody = false →
    ∀ choice, ((r.state n).advance t choice).2 = .blocked
  settled : ∀ t, S.Owes r c t n →
    ∃ call, (r.state n).call? t = some call ∧ call.atBody = false

/-- Thread `w` is parked in a wait for a condition with mutex `l`, and has not been woken. -/
def Machine.Parks (m : Machine) (c : CondRef) (l : LockRef) (w : Tid) : Prop :=
  ∃ timeout start rest p, m.call? w = some (.waitWhile c l timeout (.waiting start rest p)) ∧
    ((∃ deadline, p = .fallback (.parked deadline)) ∨
      (∃ me deadline, p = .native (.queued me deadline)) ∧ m.store.Queued c w)

/-- A parked thread sleeps. -/
theorem Machine.Parks.sleeps {m : Machine} (h : m.Parks c l w) :
    ∃ timeout p, m.call? w = some (.waitWhile c l timeout p) ∧ p.Sleeps m.store c w := by
  obtain ⟨timeout, start, rest, p, hcall, ⟨deadline, rfl⟩ | ⟨⟨me, deadline, rfl⟩, hqueued⟩⟩ := h
  · exact ⟨timeout, _, hcall, trivial⟩
  · exact ⟨timeout, _, hcall, hqueued⟩

/-- A broadcast on its way is blocked only at a closed gate. -/
theorem WakeupPhase.gate_of_blocked {s : Store} {choice : Choice} {p : WakeupPhase}
    (h : p.isComing (s.conds.get c).backend? = true)
    (hblocked : p.step c .all choice s = .blocked) :
    ∃ f, s.conds.get c = .fallback f ∧ f.gate.take? = none := by
  cases hcond : s.conds.get c with
  | raw => cases p <;> simp [isComing, hcond, Condition.backend?] at h
  | native q =>
    cases p <;> simp [isComing, hcond, Condition.backend?] at h <;>
      simp [step, Store.withNative, hcond] at hblocked
  | fallback f =>
    cases p <;> simp [isComing, hcond, Condition.backend?] at h
    · simp [step, hcond] at hblocked
    · simp only [step, Store.withFallback, hcond] at hblocked
      split at hblocked
      · cases hblocked
      · exact ⟨f, rfl, ‹_›⟩
    · simp only [step, Store.withFallback, hcond, Store.violate] at hblocked
      (repeat' split at hblocked) <;> cases hblocked

namespace Sharing.Stalled

/-- Where nobody can move, the gate is open and nothing is published. -/
theorem calm (h : S.Stalled r c n) (hlimit : r.WithinLimit c) {f : Fallback}
    (hcond : (r.state n).store.conds.get c = .fallback f) :
    f.gate.available = 1 ∧ f.mode = 0 := by
  have hall (t : Tid) (hplace : (r.state n).place c t ≠ .outside) :
      ∃ choice, ((r.state n).advance t choice).2 = .blocked := by
    cases hcall : (r.state n).call? t with
    | none => exact absurd (by rw [Machine.place, Machine.see, hcall]; rfl) hplace
    | some call =>
      refine ⟨⟨0, false⟩, h.blocked t call hcall ?_ _⟩
      rw [← Bool.not_eq_true]
      intro hbody
      rw [Machine.place, Machine.see_of_call? hcall] at hplace
      exact hplace (Call.Calm.place (.body hbody) c)
  obtain ⟨hgate, hmode, -⟩ := (Run.gate_progress hlimit n hcond).2 hall
  exact ⟨hgate, hmode⟩

/-- Where nobody can move, no broadcast is pending. -/
theorem not_pending (h : S.Stalled r c n) (hlimit : r.WithinLimit c) (hshares : r.Shares c l S) :
    ¬ S.Pending r c n := by
  intro hpending
  cases hpending with
  | @owed t howes =>
    obtain ⟨call, hcall, hbody⟩ := h.settled t howes
    exact Machine.not_blocked_of_prompt (r.state_identified n) (fun l => r.state_holds l n) hcall
      (hshares.prompt howes hcall hbody) ⟨0, false⟩ (h.blocked t call hcall hbody _)
  | @coming t p hcall hcoming =>
    have hstep := Machine.step_of_blocked hcall (h.blocked t _ hcall rfl ⟨0, false⟩)
    have hblocked : p.step c .all ⟨0, false⟩ (r.state n).store = .blocked := by
      by_contra hne
      exact Progress.ne_blocked_of_within hne (by simp) hstep
    obtain ⟨f, hcond, htake⟩ := WakeupPhase.gate_of_blocked hcoming hblocked
    simp [Permits.take?, (h.calm hlimit hcond).1] at htake
  | published hcond hmode =>
    rw [(h.calm hlimit hcond).2] at hmode
    exact absurd hmode (by decide)

end Sharing.Stalled

/-- On either backend and in every run: where nobody can move, a thread that is parked in a wait
for a condition has found in its last evaluation that the condition holds, and it still does. -/
theorem Run.no_missed_change (hlimit : r.WithinLimit c) (hshares : r.Shares c l S)
    (hstalled : S.Stalled r c n) (hparks : (r.state n).Parks c l w) :
    ∃ k, r.Judged c l w k n ∧ S.cond k (S.data n) = true := by
  obtain ⟨timeout, p, hcall, hsleeps⟩ := hparks.sleeps
  obtain ⟨k, hinformed⟩ := exists_informed hlimit hshares hcall (.inr hsleeps)
  refine ⟨k, hinformed.judged, ?_⟩
  rcases hinformed.asleep hsleeps with hcond | hpending
  · exact hcond
  · exact absurd hpending (hstalled.not_pending hlimit hshares)

end

/-! ### A run with a change

The rules are kept by a program of two threads, up to a moment where nobody can move. -/

namespace Run

/-- Thread 0 waits for a count to reach two. Thread 1 raises it from zero to one with the mutex
held, and broadcasts; so thread 0 finds that it has to wait on, and is parked again. -/
def countingMoves : List Move :=
  prelude ++ .begin 0 (.locking 0) :: steps 0 4 ++ .begin 0 (.waitingWhile 1 0 none) ::
    steps 0 1 ++ .endBody 0 (.returned .yes) :: steps 0 12 ++
    .begin 1 (.locking 0) :: steps 1 4 ++ .tick 0 :: .begin 1 (.waking 1 .all) :: steps 1 4 ++
    .begin 1 (.unlocking 0) :: steps 1 4 ++
    steps 0 9 ++ .endBody 0 (.returned .yes) :: steps 0 12

def counting : Run := ofList countingMoves (by decide +kernel)

/-- The count, which thread 1 raises in move 30. -/
def count : Sharing Nat where
  data i := if i ≤ 30 then 0 else 1
  writer i := if i = 30 then some 1 else none
  cond _ n := decide (n < 2)

/-- There is one change. -/
theorem count_writer {t : Tid} {i : Nat} (h : count.writer i = some t) : i = 30 ∧ t = 1 := by
  simp only [count] at h
  split at h
  · exact ⟨‹_›, (Option.some.inj h).symm⟩
  · cases h

/-- Thread 1 broadcasts at once. -/
theorem count_owes {t : Tid} {i : Nat} (h : count.Owes counting 1 t i) : t = 1 ∧ i = 31 := by
  obtain ⟨j, hji, hwriter, hquiet⟩ := h
  obtain ⟨rfl, rfl⟩ := count_writer hwriter
  refine ⟨rfl, ?_⟩
  by_contra hi
  exact hquiet 31 (by decide) (by omega) rfl

/-- No evaluation in the run finds that the condition does not hold. -/
theorem counting_affirms {t : Tid} {i : Nat} {answer : Answer}
    (h : counting.move i = .endBody t (.returned answer)) : answer.isYes = true := by
  let affirms (_ : Machine) : Move → Bool
    | .endBody _ (.returned answer) => answer.isYes
    | _ => true
  have hall : along affirms .initial countingMoves = true := by decide +kernel
  have hmove := along_extend (fun _ => rfl) hall i
  rw [show extend countingMoves i = .endBody t (.returned answer) from h] at hmove
  exact hmove

/-- The program keeps to the rules. -/
theorem counting_shares : counting.Shares 1 0 count where
  judges i t answer timeout start hmove _ := by
    rw [counting_affirms hmove]
    simp only [count]
    split <;> rfl
  writes i t hwriter := by
    obtain ⟨rfl, rfl⟩ := count_writer hwriter
    exact ⟨rfl, by decide +kernel, holder_iff_has.1 (by decide +kernel)⟩
  unchanged i hwriter := by
    simp only [count] at hwriter ⊢
    split at hwriter
    · cases hwriter
    · have hiff : i + 1 ≤ 30 ↔ i ≤ 30 := by omega
      simp only [hiff]
  announces i t howes := by
    obtain ⟨rfl, rfl⟩ := count_owes howes
    have hmove : counting.move 31 = .begin 1 (.waking 1 .all) := rfl
    simp [hmove]

/-- Thread 0 is parked at the end, and thread 1 is in no call. -/
theorem counting_calls : (counting.state 63).calls.get 0 =
      [.waitWhile 1 0 none (.waiting .start none (.fallback (.parked none)))] ∧
    (counting.state 63).calls.get 1 = [] ∧
    (counting.state 63).store.nextThread = 2 ∧
    (counting.state 63).store.conds.get 1 = .fallback ⟨1, ⟨1, 1⟩, .clear⟩ := by
  decide +kernel

/-- At the end nobody can move. -/
theorem counting_stalled : count.Stalled counting 1 63 where
  blocked t call hcall hbody choice := by
    obtain ⟨hwaits, hidle, hnext, hcond⟩ := counting_calls
    by_cases ht : (counting.state 63).store.nextThread ≤ t
    · rw [Machine.call?, (counting.state_sound 63).unborn t ht] at hcall
      cases hcall
    rw [hnext, Nat.not_le, Nat.lt_succ_iff, Nat.le_one_iff_eq_zero_or_eq_one] at ht
    rcases ht with rfl | rfl
    · rw [Machine.advance_blocked hwaits]
      simp [Call.step, Call.lift, WaitWhilePhase.step, WaitPhase.step, FallbackWaitPhase.step,
        Store.withFallback, hcond, EventFlags.take?, EventFlags.clear, Instant.reached,
        Progress.within]
    · rw [Machine.call?, hidle] at hcall
      cases hcall
  settled t howes := by
    obtain ⟨-, hmove⟩ := count_owes howes
    cases hmove

/-- The count is one when nobody can move any more, and thread 0 still waits for two. -/
theorem no_missed_change_counting :
    counting.WithinLimit 1 ∧ counting.Shares 1 0 count ∧ count.Stalled counting 1 63 ∧
      (counting.state 63).Parks 1 0 0 ∧ count.data 63 = 1 ∧
      ∃ k, counting.Judged 1 0 0 k 63 ∧ count.cond k (count.data 63) = true := by
  have hlimit : counting.WithinLimit 1 := withinLimit_ofList _ (by decide +kernel)
  have hparks : (counting.state 63).Parks 1 0 0 :=
    ⟨_, _, _, _, Machine.call?_of_get counting_calls.1, .inl ⟨_, rfl⟩⟩
  exact ⟨hlimit, counting_shares, counting_stalled, hparks, rfl,
    no_missed_change hlimit counting_shares counting_stalled hparks⟩

end Run

end Interlock
