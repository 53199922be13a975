import Interlock.Proofs.Sight
import Mathlib.Data.Finset.Card
import Mathlib.Data.Nat.Count

/-!
# The permits of a semaphore

A permit that is put back is announced in a step of its own, to one sleeper, and anybody may take
the permit before that sleeper looks again. Permits are not lost by this: while somebody sleeps,
each permit has a thread that is about to wake somebody or that has been woken.

  * `Seat`: where a thread is at a semaphore, and `Semaphore.Deed`: what each step of a call does;
  * `Semaphore.Attended`: the permits and the sleepers together are no more than the threads that
    are on the semaphore, and `Semaphore.Attended.deed`: every step keeps this;
  * `Run.obtained`, `Run.putBack`, `Run.announced`: how many permits have been taken, put back, and
    announced;
  * `Run.KeepsPermits`, `Run.permits_kept`: how a semaphore treats its permits.
-/

namespace Interlock

variable {r : SemaphoreRef} {t u : Tid} {choice : Choice} {s : Store} {call : Call}

/-! ## Steps

A semaphore is looked at together with where the threads are, since a release leaves it with a
permit and a sleeper side by side. `Semaphore.Deed` lists what each step does to both; the rest of
the module argues about deeds and does not look at the code again. -/

/-- Where a thread is at a semaphore. -/
inductive Seat where
  | away
  /-- It has gone to sleep for a permit; it may have been woken. -/
  | asleep
  /-- It has put a permit back, and is to wake a sleeper. -/
  | notifying
  deriving DecidableEq

def Call.seat (r : SemaphoreRef) : Call → Seat
  | acquire r' .asleep => if r' = r then .asleep else .away
  | release r' .notify => if r' = r then .notifying else .away
  | _ => .away

/-- A call on something else is away from this semaphore. -/
theorem Call.seat_elsewhere (h : call.semaphore? ≠ some r) : call.seat r = .away := by
  cases call with
  | acquire r' p =>
    have hr : r' ≠ r := fun heq => h (by rw [heq]; rfl)
    cases p <;> simp [seat, hr]
  | release r' p =>
    have hr : r' ≠ r := fun heq => h (by rw [heq]; rfl)
    cases p <;> simp [seat, hr]
  | _ => rfl

/-- A seat tells the call and its phase. -/
theorem Call.seat_cases (r : SemaphoreRef) (call : Call) :
    call.seat r = .away ∨ call.seat r = .asleep ∧ call = .acquire r .asleep ∨
      call.seat r = .notifying ∧ call = .release r .notify := by
  by_cases hon : call.semaphore? = some r
  · cases call with
    | acquire r' p => cases hon; cases p <;> simp [seat]
    | release r' p => cases hon; cases p <;> simp [seat]
    | _ => exact .inl rfl
  · exact .inl (seat_elsewhere hon)

/-- A calm call has no seat. -/
theorem Call.Calm.seat (h : call.Calm) : call.seat r = .away := by
  cases h with
  | fresh h =>
    cases call with
    | acquire r' p => cases p <;> first | rfl | cases h
    | release r' p => cases p <;> first | rfl | cases h
    | _ => rfl
  | body h => cases call <;> first | rfl | cases h
  | @resumed call e h => cases call <;> first | rfl | cases h

theorem Call.semaphore_origin (call : Call) : call.origin.semaphore? = call.semaphore? := by
  cases call <;> rfl

/-- What a step of thread `t` in a call on a semaphore does: what its client is told, and what
becomes of the semaphore and of the thread's seat. -/
inductive Semaphore.Deed (r : SemaphoreRef) (t : Tid) (sem : Semaphore) :
    Call → Notice → Semaphore → Seat → Prop
  | took {p : AcquirePhase} {permits : Permits} (hp : p = .asleep → t ∉ sem.sleepers)
    (htake : sem.permits.take? = some permits) :
    Deed r t sem (.acquire r p) (.replied .nothing) { sem with permits := permits } .away
  | slept {p : AcquirePhase} (hp : p = .asleep → t ∉ sem.sleepers)
    (htake : sem.permits.take? = none) :
    Deed r t sem (.acquire r p) .working { sem with sleepers := sem.sleepers ++ [t] } .asleep
  | blocked (hsleeps : t ∈ sem.sleepers) :
    Deed r t sem (.acquire r .asleep) .blocked sem .asleep
  | tried {permits : Permits} (htake : sem.permits.take? = some permits) :
    Deed r t sem (.tryAcquire r) (.replied (.flag true)) { sem with permits := permits } .away
  | refused (htake : sem.permits.take? = none) :
    Deed r t sem (.tryAcquire r) (.replied (.flag false)) sem .away
  | put {permits : Permits} (hput : sem.permits.put? = some permits) :
    Deed r t sem (.release r .put) .working { sem with permits := permits } .notifying
  | full (hput : sem.permits.put? = none) :
    Deed r t sem (.release r .put) (.panicked (.violation (.overRelease sem.permits.max))) sem .away
  | notified (n : Nat) :
    Deed r t sem (.release r .notify) (.replied .nothing)
      { sem with sleepers := sem.sleepers.eraseIdx (n % sem.sleepers.length) } .away

/-- Every step of a call on a semaphore is one of these. -/
theorem Call.step_deed (hon : call.semaphore? = some r) :
    (s.semaphores.get r).Deed r t call (call.step t choice s).notice
      (((call.step t choice s).storeFrom s).semaphores.get r)
      ((call.step t choice s).shown (Call.seat r) .away call) := by
  have hset (sem : Semaphore) : (s.setSemaphore r sem).semaphores.get r = sem :=
    Table.get_set_self ..
  cases call with
  | acquire r' p =>
    cases hon
    -- the first attempt and the one after a sleep are the same code
    have hattempt {attempt : Progress Call Reply}
        (hattempt : attempt =
          lift (acquire r) (fun _ => .nothing) (AcquirePhase.attemptStep t r s))
        (hp : p = .asleep → t ∉ (s.semaphores.get r).sleepers) :
        (s.semaphores.get r).Deed r t (.acquire r p) attempt.notice
          ((attempt.storeFrom s).semaphores.get r)
          (attempt.shown (Call.seat r) .away (.acquire r p)) := by
      rw [hattempt, AcquirePhase.attemptStep]
      cases htake : (s.semaphores.get r).permits.take? with
      | some permits => simpa [lift, Progress.within, Progress.notice, Progress.storeFrom,
          Progress.shown, hset] using Semaphore.Deed.took hp htake
      | none => simpa [lift, Progress.within, Progress.notice, Progress.storeFrom,
          Progress.shown, hset, seat, atBody] using Semaphore.Deed.slept hp htake
    cases p with
    | attempt => exact hattempt rfl (by simp)
    | asleep =>
      simp only [step, AcquirePhase.step]
      split
      · rename_i hsleeps
        simpa [lift, Progress.within, Progress.notice, Progress.storeFrom, Progress.shown, seat]
          using Semaphore.Deed.blocked hsleeps
      · exact hattempt rfl fun _ => ‹_›
  | tryAcquire r' =>
    cases hon
    simp only [step, single, tryAcquireStep]
    cases htake : (s.semaphores.get r).permits.take? with
    | some permits => simpa [Progress.within, Progress.notice, Progress.storeFrom,
        Progress.shown, hset] using Semaphore.Deed.tried htake
    | none => simpa [Progress.within, Progress.notice, Progress.storeFrom, Progress.shown]
        using Semaphore.Deed.refused htake
  | release r' p =>
    cases hon
    cases p with
    | put =>
      simp only [step, lift, ReleasePhase.step]
      cases hput : (s.semaphores.get r).permits.put? with
      | some permits => simpa [Progress.within, Progress.notice, Progress.storeFrom,
          Progress.shown, hset, seat, atBody] using Semaphore.Deed.put hput
      | none => simpa [Progress.within, Progress.notice, Progress.storeFrom, Progress.shown,
          Store.violate, Store.report] using Semaphore.Deed.full hput
    | notify =>
      simpa [step, lift, ReleasePhase.step, Progress.within, Progress.notice, Progress.storeFrom,
        Progress.shown, hset] using Semaphore.Deed.notified choice.pick
  | _ => cases hon

/-! ## Permits and those that wait for them

The reason why no permit is left beside a sleeper: whoever puts a permit back is on the semaphore
until it has woken somebody, and whoever was woken is on it until it has looked again. So as long as
anybody sleeps, permits and sleepers together are no more than the threads on the semaphore; and if
none of these is about to wake or to look, all of them are sleepers, and no permit is left
(`Attended.available_eq`). -/

theorem Call.acquire_seat_ne_notifying (r : SemaphoreRef) (p : AcquirePhase) :
    (Call.acquire r p).seat r ≠ .notifying := by
  cases p <;> simp [seat]

/-- Taking a permit takes one. -/
theorem Permits.of_take {p p' : Permits} (h : p.take? = some p') :
    p'.max = p.max ∧ p.available = p'.available + 1 := by
  unfold take? at h
  split at h
  · cases h
  · cases h
    exact ⟨rfl, by change _ = _ - 1 + 1; omega⟩

theorem Permits.take_none_iff {p : Permits} : p.take? = none ↔ p.available = 0 := by
  simp [take?]

/-- Putting one back adds one. -/
theorem Permits.of_put {p p' : Permits} (h : p.put? = some p') :
    p.available ≠ p.max ∧ p'.max = p.max ∧ p'.available = p.available + 1 := by
  unfold put? at h
  split at h
  · cases h
  · cases h
    exact ⟨‹_›, rfl, rfl⟩

theorem Permits.put_none_iff {p : Permits} : p.put? = none ↔ p.available = p.max := by
  simp [put?]

/-- A step takes a permit just when it obtains one for its caller, adds one just when it puts one
back, and whoever has put one back is to announce it. -/
theorem Semaphore.Deed.books {sem sem' : Semaphore} {notice : Notice} {x : Seat}
    {obtains puts announces : Prop} [Decidable obtains] [Decidable puts] [Decidable announces]
    (h : sem.Deed r t call notice sem' x)
    (hobtains : obtains ↔ (∃ p, call = .acquire r p) ∧ notice = .replied .nothing ∨
      call = .tryAcquire r ∧ notice = .replied (.flag true))
    (hputs : puts ↔ call = .release r .put ∧ notice = .working)
    (hannounces : announces ↔ call = .release r .notify ∧ notice = .replied .nothing) :
    sem'.permits.max = sem.permits.max ∧
      sem'.permits.available + (if obtains then 1 else 0) =
        sem.permits.available + (if puts then 1 else 0) ∧
      (if puts then 1 else 0) + (if call.seat r = .notifying then 1 else 0) =
        (if announces then 1 else 0) + (if x = .notifying then 1 else 0) := by
  -- each deed changes at most one permit and one announcement
  cases h with
  | took _ htake =>
    obtain ⟨hmax, havailable⟩ := Permits.of_take htake
    simp [hobtains, hputs, hannounces, Call.acquire_seat_ne_notifying, hmax, havailable]
  | slept => simp [hobtains, hputs, hannounces, Call.acquire_seat_ne_notifying]
  | tried htake =>
    obtain ⟨hmax, havailable⟩ := Permits.of_take htake
    simp [hobtains, hputs, hannounces, Call.seat, hmax, havailable]
  | put hput =>
    obtain ⟨-, hmax, havailable⟩ := Permits.of_put hput
    simp [hobtains, hputs, hannounces, Call.seat, hmax, havailable]
  | blocked | refused | full | notified => simp [hobtains, hputs, hannounces, Call.seat]

namespace Semaphore

variable {sem sem' : Semaphore} {seat seat' : Tid → Seat} {busy busy' : Finset Tid}
  {notice : Notice} {x : Seat}

/-- No more permits and sleepers than threads on the semaphore: of those that do not sleep, each
has put a permit back or been woken for one. -/
structure Attended (sem : Semaphore) (seat : Tid → Seat) (busy : Finset Tid) : Prop where
  bounded : sem.permits.available ≤ sem.permits.max
  nodup : sem.sleepers.Nodup
  asleep : ∀ t ∈ sem.sleepers, seat t = .asleep
  mem_busy : ∀ t, t ∈ busy ↔ seat t ≠ .away
  served : sem.sleepers ≠ [] → sem.permits.available + sem.sleepers.length ≤ busy.card

/-- A new semaphore has no sleepers. -/
theorem attended_new {permits : Permits} (hvalid : permits.valid = true)
    (hbusy : ∀ t, t ∈ busy ↔ seat t ≠ .away) : (new permits).Attended seat busy where
  bounded := by
    simp only [Permits.valid, Bool.and_eq_true, decide_eq_true_eq] at hvalid
    exact hvalid.2
  nodup := List.nodup_nil
  asleep _ ht := nomatch ht
  mem_busy := hbusy
  served h := absurd rfl h

namespace Attended

/-- The sleepers and one more thread are so many threads on the semaphore. -/
theorem length_lt (h : sem.Attended seat busy) (ht : t ∉ sem.sleepers) :
    sem.sleepers.length < (insert t busy).card := by
  have hsubset : (t :: sem.sleepers).toFinset ⊆ insert t busy := by
    intro u hu
    rw [Finset.mem_insert, h.mem_busy]
    rcases List.mem_cons.1 (List.mem_toFinset.1 hu) with rfl | hu
    · exact .inl rfl
    · exact .inr (by simp [h.asleep u hu])
  have hnodup : (t :: sem.sleepers).Nodup := List.nodup_cons.2 ⟨ht, h.nodup⟩
  calc sem.sleepers.length < (t :: sem.sleepers).toFinset.card := by
        rw [List.toFinset_card_of_nodup hnodup]
        exact Nat.lt_succ_self _
    _ ≤ (insert t busy).card := Finset.card_le_card hsubset

theorem not_sleeper (h : sem.Attended seat busy) (hne : seat t ≠ .asleep) : t ∉ sem.sleepers :=
  fun ht => hne (h.asleep t ht)

/-- An attempt that is not blocked is one of a thread that does not sleep. -/
theorem not_sleeper_of_attempt {p : AcquirePhase} (h : sem.Attended seat busy)
    (hseat : seat t = (Call.acquire r p).seat r) (hp : p = .asleep → t ∉ sem.sleepers) :
    t ∉ sem.sleepers := by
  cases p with
  | attempt => exact h.not_sleeper (by rw [hseat]; simp [Call.seat])
  | asleep => exact hp rfl

/-! ### One kind of step after the other

A step changes the seat of one thread and a little of the semaphore. What is to be shown of it is
how the permits and the sleepers together change, and how the number of the threads on the semaphore
does. -/

section

variable (h : sem.Attended seat busy) (hothers : ∀ u, u ≠ t → seat' u = seat u)
  (hbusy : ∀ u, u ∈ busy' ↔ seat' u ≠ .away)

include h hothers hbusy

/-- A thread that leaves its seat, or never had one, is no sleeper. -/
theorem leave (ht : t ∉ sem.sleepers) (haway : seat' t = .away) :
    busy' = busy.erase t ∧ ∀ u ∈ sem.sleepers, seat' u = .asleep := by
  constructor
  · ext u
    rw [hbusy, Finset.mem_erase, h.mem_busy]
    by_cases hu : u = t
    · simp [hu, haway]
    · simp [hu, hothers u hu]
  · intro u hu
    rw [hothers u fun heq => ht (heq ▸ hu)]
    exact h.asleep u hu

/-- A thread that takes a seat is on the semaphore from then on. -/
theorem sit (hseat : seat' t ≠ .away) : busy' = insert t busy := by
  ext u
  rw [hbusy, Finset.mem_insert, h.mem_busy]
  by_cases hu : u = t
  · simp [hu, hseat]
  · simp [hu, hothers u hu]

/-- A thread that keeps its seat changes nobody's. -/
theorem stay (hkept : seat' t = seat t) : seat' = seat ∧ busy' = busy := by
  have hseats : seat' = seat := by
    funext u
    by_cases hu : u = t
    · rw [hu, hkept]
    · exact hothers u hu
  refine ⟨hseats, ?_⟩
  ext u
  rw [hbusy, hseats, h.mem_busy]

/-- One permit fewer, and one thread fewer on the semaphore at most. -/
theorem took {permits : Permits} (htake : sem.permits.take? = some permits) (ht : t ∉ sem.sleepers)
    (haway : seat' t = .away) : { sem with permits := permits }.Attended seat' busy' := by
  obtain ⟨hmax, havailable⟩ := Permits.of_take htake
  obtain ⟨hbusy', hasleep⟩ := h.leave hothers hbusy ht haway
  have hbounded : permits.available ≤ permits.max := by
    have hle := h.bounded
    omega
  refine ⟨hbounded, h.nodup, hasleep, hbusy, fun hne => ?_⟩
  have hserved := h.served hne
  have hcard : busy.card - 1 ≤ busy'.card := by
    rw [hbusy']
    exact Finset.pred_card_le_card_erase
  change permits.available + sem.sleepers.length ≤ _
  omega

/-- No permit, and the sleepers are so many threads on the semaphore. -/
theorem slept (htake : sem.permits.take? = none) (ht : t ∉ sem.sleepers)
    (hasleep : seat' t = .asleep) :
    { sem with sleepers := sem.sleepers ++ [t] }.Attended seat' busy' := by
  have hzero := Permits.take_none_iff.1 htake
  have hbusy' := h.sit hothers hbusy (hasleep ▸ by simp)
  refine ⟨h.bounded, ?_, ?_, hbusy, fun _ => ?_⟩
  · exact List.nodup_append.2 ⟨h.nodup, List.nodup_singleton t, by
      rintro u hu v hv rfl
      exact ht (List.mem_singleton.1 hv ▸ hu)⟩
  · intro u hu
    rcases List.mem_append.1 hu with hu | hu
    · rw [hothers u fun heq => ht (heq ▸ hu)]
      exact h.asleep u hu
    · rw [List.mem_singleton.1 hu, hasleep]
  · have hlength : sem.sleepers.length + 1 ≤ busy'.card := hbusy' ▸ h.length_lt ht
    simpa [hzero] using hlength

/-- One permit more, and one thread more, which is to wake a sleeper. -/
theorem put {permits : Permits} (hput : sem.permits.put? = some permits) (haway : seat t = .away)
    (hnotifying : seat' t = .notifying) : { sem with permits := permits }.Attended seat' busy' := by
  have ht : t ∉ sem.sleepers := h.not_sleeper (by rw [haway]; simp)
  obtain ⟨hne, hmax, havailable⟩ := Permits.of_put hput
  have hbusy' := h.sit hothers hbusy (hnotifying ▸ by simp)
  have hnot : t ∉ busy := by rw [h.mem_busy, haway]; simp
  have hbounded : permits.available ≤ permits.max := by
    have hle := h.bounded
    omega
  refine ⟨hbounded, h.nodup, ?_, hbusy, fun hsleepers => ?_⟩
  · intro u hu
    rw [hothers u fun heq => ht (heq ▸ hu)]
    exact h.asleep u hu
  · have hserved := h.served hsleepers
    have hcard : busy'.card = busy.card + 1 := by
      rw [hbusy', Finset.card_insert_of_notMem hnot]
    change permits.available + sem.sleepers.length ≤ _
    omega

/-- One sleeper fewer, and one thread fewer, the one that has woken it. -/
theorem notified (n : Nat) (hnotifying : seat t = .notifying) (haway : seat' t = .away) :
    { sem with sleepers := sem.sleepers.eraseIdx (n % sem.sleepers.length) }.Attended seat'
      busy' := by
  have ht : t ∉ sem.sleepers := h.not_sleeper (by rw [hnotifying]; simp)
  obtain ⟨hbusy', hasleep⟩ := h.leave hothers hbusy ht haway
  have hmem : t ∈ busy := by rw [h.mem_busy, hnotifying]; simp
  refine ⟨h.bounded, h.nodup.sublist (List.eraseIdx_sublist ..), ?_, hbusy, fun hne => ?_⟩
  · intro u hu
    exact hasleep u ((List.eraseIdx_sublist ..).subset hu)
  · have hsleepers : sem.sleepers ≠ [] := by
      rintro heq
      exact hne (by simp [heq])
    have hserved := h.served hsleepers
    have hpos := List.length_pos_iff.2 hsleepers
    have hlength := List.length_eraseIdx_of_lt (Nat.mod_lt n hpos)
    have hcard : busy'.card + 1 = busy.card := by
      rw [hbusy', Finset.card_erase_add_one hmem]
    change sem.permits.available + (sem.sleepers.eraseIdx _).length ≤ _
    omega

/-- Every step of a call on the semaphore keeps this. -/
theorem deed (hdeed : sem.Deed r t call notice sem' x) (hseat : seat t = call.seat r)
    (hseat' : seat' t = x) : sem'.Attended seat' busy' := by
  cases hdeed with
  | took hp htake =>
    exact h.took hothers hbusy htake (h.not_sleeper_of_attempt hseat hp) hseat'
  | slept hp htake =>
    exact h.slept hothers hbusy htake (h.not_sleeper_of_attempt hseat hp) hseat'
  | blocked hsleeps =>
    obtain ⟨rfl, rfl⟩ := h.stay hothers hbusy (by rw [hseat', hseat]; simp [Call.seat])
    exact h
  | tried htake =>
    exact h.took hothers hbusy htake (h.not_sleeper (by rw [hseat]; simp [Call.seat])) hseat'
  | refused | full =>
    obtain ⟨rfl, rfl⟩ := h.stay hothers hbusy (by rw [hseat', hseat]; rfl)
    exact h
  | put hput => exact h.put hothers hbusy hput hseat hseat'
  | notified n =>
    exact h.notified hothers hbusy n (by rw [hseat]; simp [Call.seat]) hseat'

end

/-- When nobody is about to wake a sleeper, and no woken thread is yet to run, a sleeper finds no
permit. -/
theorem available_eq (h : sem.Attended seat busy) (hnotifying : ∀ t, seat t ≠ .notifying)
    (hwoken : ∀ t, seat t = .asleep → t ∈ sem.sleepers) (hsleeps : seat t = .asleep) :
    sem.permits.available = 0 := by
  have hsubset : busy ⊆ sem.sleepers.toFinset := by
    intro u hu
    rw [h.mem_busy] at hu
    cases hseat : seat u with
    | away => exact absurd hseat hu
    | asleep => exact List.mem_toFinset.2 (hwoken u hseat)
    | notifying => exact absurd hseat (hnotifying u)
  have hcard := Finset.card_le_card hsubset
  rw [List.toFinset_card_of_nodup h.nodup] at hcard
  have hserved := h.served (List.ne_nil_of_mem (hwoken t hsleeps))
  omega

end Attended

end Semaphore

/-! ## Other semaphores

What is left alone by the steps that are none of its deeds. -/

/-- A step leaves a semaphore alone that its call does not work on. -/
theorem Call.step_other_semaphores (h : call.semaphore? ≠ some r) :
    (call.step t choice s).Keeps fun s' => s'.semaphores.get r = s.semaphores.get r := by
  cases hcall : call.semaphore? with
  | none => exact (step_semaphores hcall).imp fun _ hs => by rw [hs]
  | some r' =>
    have hne : r ≠ r' := by
      rintro rfl
      exact h hcall
    -- all that a call on a semaphore writes is that semaphore
    have hset (sem : Semaphore) : (s.setSemaphore r' sem).semaphores.get r = s.semaphores.get r :=
      Table.get_set_of_ne _ _ hne
    cases call with
    | acquire r₀ p =>
      cases hcall
      cases p <;> simp only [step, lift, AcquirePhase.step, AcquirePhase.attemptStep] <;>
        (repeat' split) <;> first | exact trivial | exact hset _
    | tryAcquire r₀ =>
      cases hcall
      simp only [step, single, tryAcquireStep]
      split <;> first | exact rfl | exact hset _
    | release r₀ p =>
      cases hcall
      cases p <;> simp only [step, lift, ReleasePhase.step, Store.violate] <;>
        (repeat' split) <;> first | exact rfl | exact hset _
    | _ => cases hcall

/-- A client leaves the semaphores alone that there are. -/
theorem Creation.semaphores_of_lt (s : Store) (c : Creation) (h : r < s.nextHandle) :
    (c.apply s).semaphores.get r = s.semaphores.get r := by
  cases c with
  | semaphore permits =>
    simp only [apply, Store.addSemaphore?]
    cases permits.valid with
    | true => exact Table.get_set_of_ne _ _ (Nat.ne_of_lt h)
    | false => rfl
  | thread name stackSize =>
    obtain ⟨log, hreport⟩ := s.exists_reportName?_eq name
    simp only [apply, Store.addThread, hreport]
    rfl
  | _ => rfl

/-! ## Moves

A deed of the run is a step of the thread's innermost call, and it changes that thread's seat
only. -/

namespace Run

variable {run : Run} {b i : Nat} {notice : Notice} {permits : Permits}

/-- Semaphore `r` before move `i`. -/
def semaphore (run : Run) (r : SemaphoreRef) (i : Nat) : Semaphore :=
  (run.state i).store.semaphores.get r

def seat (run : Run) (r : SemaphoreRef) (i : Nat) (t : Tid) : Seat :=
  (run.state i).see (Call.seat r) .away t

theorem seat_of_call? (h : (run.state i).call? t = some call) : run.seat r i t = call.seat r :=
  Machine.see_of_call? h

/-- The seat of a thread tells its call. -/
theorem seat_cases (run : Run) (r : SemaphoreRef) (i : Nat) (t : Tid) :
    run.seat r i t = .away ∨
      run.seat r i t = .asleep ∧ (run.state i).call? t = some (.acquire r .asleep) ∨
      run.seat r i t = .notifying ∧ (run.state i).call? t = some (.release r .notify) := by
  cases hcall : (run.state i).call? t with
  | none => exact .inl (by rw [seat, Machine.see, hcall]; rfl)
  | some call =>
    rw [seat_of_call? hcall]
    exact (call.seat_cases r).imp_right (Or.imp (And.imp_right (congrArg some))
      (And.imp_right (congrArg some)))

/-- A call on a semaphore does one of its deeds, and the other threads keep their seats. -/
theorem Performs.deed (h : run.Performs t i call notice) (hon : call.semaphore? = some r) :
    (run.semaphore r i).Deed r t call notice (run.semaphore r (i + 1)) (run.seat r (i + 1) t) ∧
      ∀ u, u ≠ t → run.seat r (i + 1) u = run.seat r i u := by
  obtain ⟨choice, hmove, hcall, rfl⟩ := h
  constructor
  · rw [Machine.advance_notice hcall, semaphore, semaphore, (performs_of_move hmove hcall).2, seat,
      see_of_move (fun _ h => h.seat) hmove hcall]
    exact Call.step_deed hon
  · intro u hu
    exact see_others (fun _ h => h.seat) (fun _ => rfl) hmove hu

/-- Where no call on a semaphore takes a step, all stays as it is. -/
theorem semaphore_idle (hborn : r < (run.state i).store.nextHandle)
    (hidle : ∀ t call notice, run.Performs t i call notice → call.semaphore? ≠ some r) :
    run.semaphore r (i + 1) = run.semaphore r i ∧
      ∀ u, run.seat r (i + 1) u = run.seat r i u := by
  constructor
  · refine store_kept (g := fun s => s.semaphores.get r) ?_ ?_
    · intro c _
      exact c.semaphores_of_lt _ hborn
    · intro t choice call hmove hcall
      exact Call.step_other_semaphores (hidle t call _ (performs_of_move hmove hcall).1)
  · intro u
    by_cases hmove : ∃ t choice, run.move i = .advance t choice
    · obtain ⟨t, choice, hmove⟩ := hmove
      cases hcall : (run.state i).call? t with
      | none => rw [seat, seat, state_of_none hmove hcall]
      | some call =>
        refine see_elsewhere (fun _ h => h.seat) (fun _ => rfl) hmove hcall fun call' horigin => ?_
        refine Call.seat_elsewhere fun hon => ?_
        refine hidle t call _ (performs_of_move hmove hcall).1 ?_
        rw [← Call.semaphore_origin, ← horigin, Call.semaphore_origin, hon]
    · exact see_idle (fun _ h => h.seat) (fun _ => rfl) fun choice heq => hmove ⟨u, choice, heq⟩

/-! ## Counts

What has been obtained, put back and announced is counted over the moves of the run. The books are
kept deed by deed (`Semaphore.Deed.books`), and each move adds one deed at most. -/

section

variable (run : Run) (r : SemaphoreRef)

/-- A call obtains a permit in move `i`. -/
def ObtainsPermit (i : Nat) : Prop :=
  ∃ t, (∃ p, run.Performs t i (.acquire r p) (.replied .nothing)) ∨
    run.Performs t i (.tryAcquire r) (.replied (.flag true))

/-- A release puts its permit back in move `i`. -/
def PutsBack (i : Nat) : Prop := ∃ t, run.Performs t i (.release r .put) .working

/-- A release that has put its permit back wakes a sleeper, if there is one, and returns. -/
def Announces (i : Nat) : Prop := ∃ t, run.Performs t i (.release r .notify) (.replied .nothing)

open Classical in
/-- How many permits have been obtained before move `i`. -/
noncomputable def obtained (i : Nat) : Nat := Nat.count (run.ObtainsPermit r) i

open Classical in
noncomputable def putBack (i : Nat) : Nat := Nat.count (run.PutsBack r) i

open Classical in
noncomputable def announced (i : Nat) : Nat := Nat.count (run.Announces r) i

/-- The threads that sit so before move `i`. -/
def seated (p : Seat → Bool) (i : Nat) : Finset Tid :=
  (Finset.range (run.state i).store.nextThread).filter fun t => p (run.seat r i t) = true

/-- The releases that have put their permit back, and not yet woken a sleeper. -/
def notifying (i : Nat) : Finset Tid := run.seated r (· == .notifying) i

end

/-- Who sits so is told by the seat. -/
theorem mem_seated {p : Seat → Bool} (haway : p .away = false) :
    t ∈ run.seated r p i ↔ p (run.seat r i t) = true := by
  rw [seated, Finset.mem_filter, Finset.mem_range]
  refine and_iff_right_of_imp fun hp => ?_
  cases hget : (run.state i).calls.get t with
  | nil =>
    rw [seat, Machine.see, Machine.call?, hget] at hp
    cases haway.symm.trans hp
  | cons call outer => exact (run.state_sound i).born hget

theorem mem_notifying : t ∈ run.notifying r i ↔ run.seat r i t = .notifying := by
  rw [notifying, mem_seated rfl, beq_iff_eq]

/-- How many threads are to wake a sleeper changes with the seat of the thread that moves. -/
theorem card_notifying_succ (hothers : ∀ u, u ≠ t → run.seat r (i + 1) u = run.seat r i u) :
    (run.notifying r (i + 1)).card + (if run.seat r i t = .notifying then 1 else 0) =
      (run.notifying r i).card + (if run.seat r (i + 1) t = .notifying then 1 else 0) := by
  have hsame : (run.notifying r (i + 1)).erase t = (run.notifying r i).erase t := by
    ext u
    rw [Finset.mem_erase, Finset.mem_erase, mem_notifying, mem_notifying]
    exact and_congr_right fun hu => by rw [hothers u hu]
  have hcard (j : Nat) : (run.notifying r j).card =
      ((run.notifying r j).erase t).card + if run.seat r j t = .notifying then 1 else 0 := by
    split <;> rename_i hseat
    · exact (Finset.card_erase_add_one (mem_notifying.2 hseat)).symm
    · rw [Finset.erase_eq_of_notMem fun hmem => hseat (mem_notifying.1 hmem), Nat.add_zero]
  rw [hcard (i + 1), hcard i, hsame]
  omega

/-- Whether a move obtains a permit is told by its step. -/
theorem Performs.obtainsPermit_iff (h : run.Performs t i call notice) :
    run.ObtainsPermit r i ↔ (∃ p, call = .acquire r p) ∧ notice = .replied .nothing ∨
      call = .tryAcquire r ∧ notice = .replied (.flag true) := by
  constructor
  · rintro ⟨u, ⟨p, h'⟩ | h'⟩
    · exact .inl ⟨⟨p, (h.unique h').2.1⟩, (h.unique h').2.2⟩
    · exact .inr (h.unique h').2
  · rintro (⟨⟨p, rfl⟩, rfl⟩ | ⟨rfl, rfl⟩)
    · exact ⟨t, .inl ⟨p, h⟩⟩
    · exact ⟨t, .inr h⟩

/-- Whether it puts one back, likewise. -/
theorem Performs.putsBack_iff (h : run.Performs t i call notice) :
    run.PutsBack r i ↔ call = .release r .put ∧ notice = .working :=
  ⟨fun ⟨_, h'⟩ => (h.unique h').2, by
    rintro ⟨rfl, rfl⟩
    exact ⟨t, h⟩⟩

/-- Whether it announces one, likewise. -/
theorem Performs.announces_iff (h : run.Performs t i call notice) :
    run.Announces r i ↔ call = .release r .notify ∧ notice = .replied .nothing :=
  ⟨fun ⟨_, h'⟩ => (h.unique h').2, by
    rintro ⟨rfl, rfl⟩
    exact ⟨t, h⟩⟩

/-- The books of a semaphore that was created with these permits. -/
structure Accounted (run : Run) (r : SemaphoreRef) (permits : Permits) (i : Nat) : Prop where
  max : (run.semaphore r i).permits.max = permits.max
  counted : (run.semaphore r i).permits.available + run.obtained r i =
    permits.available + run.putBack r i
  announced : run.putBack r i = run.announced r i + (run.notifying r i).card
  attended : (run.semaphore r i).Attended (run.seat r i) (run.seated r (· != .away) i)

theorem mem_busy : t ∈ run.seated r (· != .away) i ↔ run.seat r i t ≠ .away := by
  rw [mem_seated rfl, bne_iff_ne]

open Classical in
/-- A deed keeps the books. -/
theorem Accounted.deed (h : run.Accounted r permits i) (hperforms : run.Performs t i call notice)
    (hon : call.semaphore? = some r) : run.Accounted r permits (i + 1) := by
  obtain ⟨hdeed, hothers⟩ := hperforms.deed hon
  have hseat : run.seat r i t = call.seat r := by
    obtain ⟨choice, -, hcall, -⟩ := hperforms
    exact seat_of_call? hcall
  obtain ⟨hmax, hcounted, hannounced⟩ := hdeed.books hperforms.obtainsPermit_iff
    hperforms.putsBack_iff hperforms.announces_iff
  have hcard := card_notifying_succ hothers
  rw [hseat] at hcard
  have hcounted' := h.counted
  have hannounced' := h.announced
  refine ⟨hmax.trans h.max, ?_, ?_,
    h.attended.deed hothers (fun u => mem_busy) hdeed hseat rfl⟩
  · simp only [obtained, putBack, Nat.count_succ] at hcounted' ⊢
    omega
  · simp only [putBack, Run.announced, Nat.count_succ] at hannounced' ⊢
    omega

/-! ## From the creation on

The books begin with the creation, at zero: no call can work on a semaphore that is not there. -/

/-- No call works on a semaphore that has not been created. -/
theorem semaphore_lt (hcall : (run.state i).call? t = some call) (hon : call.semaphore? = some r) :
    r < (run.state i).store.nextHandle := by
  have hknown := (run.state_sound i).known t call (Machine.mem_of_call? hcall)
  have hmem : .semaphore r ∈ call.objects (run.state i).store := by
    cases call <;> cases hon <;> exact List.mem_singleton.2 rfl
  exact Call.handle_lt_of_knows hknown hmem

theorem Performs.known (h : run.Performs t i call notice) (hon : call.semaphore? = some r) :
    r < (run.state i).store.nextHandle := by
  obtain ⟨choice, -, hcall, -⟩ := h
  exact semaphore_lt hcall hon

theorem seat_of_unborn (h : (run.state i).store.nextHandle ≤ r) : run.seat r i t = .away :=
  Machine.see_eq fun _ hcall => Call.seat_elsewhere fun hon =>
    absurd h (Nat.not_le.2 (semaphore_lt hcall hon))

open Classical in
/-- Nothing has been counted before the creation. -/
theorem counts_of_unborn (run : Run) (h : (run.state i).store.nextHandle ≤ r) :
    run.obtained r (i + 1) = 0 ∧ run.putBack r (i + 1) = 0 ∧ run.announced r (i + 1) = 0 := by
  have hunborn {j : Nat} (hj : j < i + 1) {t : Tid} {call : Call} {notice : Notice}
      (hperforms : run.Performs t j call notice) : call.semaphore? ≠ some r := by
    intro hon
    have hle := run.nextHandle_mono (Nat.le_of_lt_succ hj)
    exact absurd (hperforms.known hon) (Nat.not_lt.2 (Nat.le_trans hle h))
  refine ⟨Nat.count_of_forall_not ?_, Nat.count_of_forall_not ?_, Nat.count_of_forall_not ?_⟩
  · rintro j hj ⟨t, ⟨p, hperforms⟩ | hperforms⟩ <;> exact hunborn hj hperforms rfl
  · rintro j hj ⟨t, hperforms⟩
    exact hunborn hj hperforms rfl
  · rintro j hj ⟨t, hperforms⟩
    exact hunborn hj hperforms rfl

/-- The books of a new semaphore. -/
theorem accounted_new (hnew : run.move b = .create (.semaphore permits))
    (hvalid : permits.valid = true) :
    run.Accounted (run.state b).store.nextHandle permits (b + 1) := by
  have hsem : run.semaphore (run.state b).store.nextHandle (b + 1) = .new permits := by
    rw [semaphore, state_succ, hnew]
    simp only [Machine.apply, Creation.apply, Store.addSemaphore?, hvalid, if_true]
    exact Table.get_set_self ..
  have hseat (t : Tid) : run.seat (run.state b).store.nextHandle (b + 1) t = .away :=
    (see_idle (fun _ h => h.seat) (fun _ => rfl) (by simp [hnew])).trans
      (seat_of_unborn (Nat.le_refl _))
  have hnotifying : run.notifying (run.state b).store.nextHandle (b + 1) = ∅ := by
    ext t
    simp [mem_notifying, hseat]
  obtain ⟨hobtained, hputBack, hannounced⟩ := run.counts_of_unborn (i := b) (Nat.le_refl _)
  refine ⟨by rw [hsem]; rfl, ?_, ?_, ?_⟩
  · rw [hsem, hobtained, hputBack]
    rfl
  · rw [hputBack, hannounced, hnotifying]
    rfl
  · rw [hsem]
    exact Semaphore.attended_new hvalid fun t => mem_busy

/-- A move without a deed keeps the books. -/
theorem Accounted.idle (h : run.Accounted r permits i) (hborn : r < (run.state i).store.nextHandle)
    (hidle : ∀ t call notice, run.Performs t i call notice → call.semaphore? ≠ some r) :
    run.Accounted r permits (i + 1) := by
  obtain ⟨hsem, hseats⟩ := semaphore_idle hborn hidle
  have hseats' : run.seat r (i + 1) = run.seat r i := funext hseats
  have hbusy : run.seated r (· != .away) (i + 1) = run.seated r (· != .away) i := by
    ext t
    rw [mem_busy, mem_busy, hseats t]
  have hnotifying : run.notifying r (i + 1) = run.notifying r i := by
    ext t
    rw [mem_notifying, mem_notifying, hseats t]
  -- each of the three kinds of event is a step of a call on `r`
  have hobtains : ¬ run.ObtainsPermit r i := by
    rintro ⟨t, ⟨p, hperforms⟩ | hperforms⟩ <;> exact hidle t _ _ hperforms rfl
  have hputs : ¬ run.PutsBack r i := fun ⟨t, hperforms⟩ => hidle t _ _ hperforms rfl
  have hannounces : ¬ run.Announces r i := fun ⟨t, hperforms⟩ => hidle t _ _ hperforms rfl
  refine ⟨hsem ▸ h.max, ?_, ?_, ?_⟩
  · rw [hsem, obtained, putBack, Nat.count_succ, Nat.count_succ, if_neg hobtains, if_neg hputs]
    exact h.counted
  · rw [hnotifying, putBack, Run.announced, Nat.count_succ, Nat.count_succ, if_neg hputs,
      if_neg hannounces]
    exact h.announced
  · rw [hsem, hseats', hbusy]
    exact h.attended

/-- The books are balanced from the creation on. -/
theorem accounted (hnew : run.move b = .create (.semaphore permits)) (hvalid : permits.valid = true)
    (hbi : b < i) : run.Accounted (run.state b).store.nextHandle permits i := by
  induction hbi with
  | refl => exact accounted_new hnew hvalid
  | @step i hbi ih =>
    have hborn : (run.state b).store.nextHandle < (run.state i).store.nextHandle := by
      refine Nat.lt_of_lt_of_le ?_ (run.nextHandle_mono hbi)
      rw [state_succ, hnew]
      simp only [Machine.apply, Creation.apply, Store.addSemaphore?, hvalid, if_true]
      exact Nat.lt_succ_self _
    by_cases hstep : ∃ t call notice, run.Performs t i call notice ∧
        call.semaphore? = some (run.state b).store.nextHandle
    · obtain ⟨t, call, notice, hperforms, hon⟩ := hstep
      exact ih.deed hperforms hon
    · exact ih.idle hborn fun t call notice hperforms hon =>
        hstep ⟨t, call, notice, hperforms, hon⟩

/-- How a semaphore that move `b` creates with these permits treats them. -/
structure KeepsPermits (run : Run) (r : SemaphoreRef) (permits : Permits) (b : Nat) : Prop where
  bounded : ∀ i, b < i → (run.semaphore r i).permits.max = permits.max ∧
    (run.semaphore r i).permits.available ≤ permits.max
  /-- What is available and what has been obtained is what was there and what has been put back. -/
  counted : ∀ i, b < i → (run.semaphore r i).permits.available + run.obtained r i =
    permits.available + run.putBack r i
  /-- A release that has put its permit back has returned, or is to wake a sleeper and return. -/
  announced : ∀ i, b < i → run.putBack r i = run.announced r i + (run.notifying r i).card
  /-- A release beyond the maximum panics and changes nothing. -/
  full : ∀ i t notice, b < i → run.Performs t i (.release r .put) notice →
    (run.semaphore r i).permits.available = permits.max →
    notice = .panicked (.violation (.overRelease permits.max)) ∧
      run.semaphore r (i + 1) = run.semaphore r i
  /-- Below the maximum it puts its permit back. -/
  room : ∀ i t notice, b < i → run.Performs t i (.release r .put) notice →
    (run.semaphore r i).permits.available ≠ permits.max →
    notice = .working ∧ (run.semaphore r (i + 1)).permits.available =
      (run.semaphore r i).permits.available + 1
  /-- An attempt succeeds when there is a permit. -/
  tried : ∀ i t notice, b < i → run.Performs t i (.tryAcquire r) notice →
    notice = .replied (.flag (decide (0 < (run.semaphore r i).permits.available)))
  /-- A thread that takes a permit is held up only while it sleeps. -/
  blocked : ∀ i t p, b < i → run.Performs t i (.acquire r p) .blocked →
    p = .asleep ∧ t ∈ (run.semaphore r i).sleepers
  /-- When no release is to wake a sleeper, and no woken thread is yet to look again, nobody sleeps
  while there is a permit. -/
  attended : ∀ i t, b < i → (∀ u, (run.state i).call? u ≠ some (.release r .notify)) →
    (∀ u, (run.state i).call? u = some (.acquire r .asleep) → u ∈ (run.semaphore r i).sleepers) →
    (run.state i).call? t = some (.acquire r .asleep) →
    (run.semaphore r i).permits.available = 0

/-- In every run, a semaphore created with valid permits never has more than its maximum, accounts
for each permit that is obtained or put back, refuses one too many, and lets nobody sleep beside a
permit. -/
theorem permits_kept (hnew : run.move b = .create (.semaphore permits))
    (hvalid : permits.valid = true) :
    run.KeepsPermits (run.state b).store.nextHandle permits b where
  bounded i hbi := by
    have h := accounted hnew hvalid hbi
    exact ⟨h.max, h.max ▸ h.attended.bounded⟩
  counted i hbi := (accounted hnew hvalid hbi).counted
  announced i hbi := (accounted hnew hvalid hbi).announced
  full i t notice hbi hperforms hfull := by
    have h := accounted hnew hvalid hbi
    obtain ⟨hdeed, -⟩ := hperforms.deed rfl
    rw [← h.max] at hfull ⊢
    generalize run.semaphore (run.state b).store.nextHandle (i + 1) = sem' at hdeed ⊢
    generalize run.seat _ (i + 1) t = x at hdeed
    cases hdeed with
    | put hput => exact absurd hfull (Permits.of_put hput).1
    | full => exact ⟨rfl, rfl⟩
  room i t notice hbi hperforms hroom := by
    have h := accounted hnew hvalid hbi
    obtain ⟨hdeed, -⟩ := hperforms.deed rfl
    rw [← h.max] at hroom
    generalize run.semaphore (run.state b).store.nextHandle (i + 1) = sem' at hdeed ⊢
    generalize run.seat _ (i + 1) t = x at hdeed
    cases hdeed with
    | put hput => exact ⟨rfl, (Permits.of_put hput).2.2⟩
    | full hput => exact absurd (Permits.put_none_iff.1 hput) hroom
  tried i t notice hbi hperforms := by
    obtain ⟨hdeed, -⟩ := hperforms.deed rfl
    generalize run.semaphore (run.state b).store.nextHandle (i + 1) = sem' at hdeed
    generalize run.seat _ (i + 1) t = x at hdeed
    cases hdeed with
    | tried htake => simp [(Permits.of_take htake).2]
    | refused htake => simp [Permits.take_none_iff.1 htake]
  blocked i t p hbi hperforms := by
    obtain ⟨hdeed, -⟩ := hperforms.deed rfl
    generalize run.semaphore (run.state b).store.nextHandle (i + 1) = sem' at hdeed
    generalize run.seat _ (i + 1) t = x at hdeed
    cases hdeed with
    | blocked hsleeps => exact ⟨rfl, hsleeps⟩
  attended i t hbi hnotifying hwoken hasleep := by
    refine (accounted hnew hvalid hbi).attended.available_eq ?_ ?_
      ((seat_of_call? hasleep).trans (if_pos rfl))
    · intro u hseat
      rcases run.seat_cases (run.state b).store.nextHandle i u with h | ⟨h, -⟩ | ⟨-, hcall⟩
      · cases hseat.symm.trans h
      · cases hseat.symm.trans h
      · exact hnotifying u hcall
    · intro u hseat
      rcases run.seat_cases (run.state b).store.nextHandle i u with h | ⟨-, hcall⟩ | ⟨h, -⟩
      · cases hseat.symm.trans h
      · exact hwoken u hcall
      · cases hseat.symm.trans h

/-- Thread 0 puts its permit back, wakes thread 1, and obtains the permit again first. -/
def barged : Run :=
  ofList (.create (.semaphore ⟨1, 1⟩) :: .spawn 0
    :: .begin 0 (.acquiring 0) :: steps 0 1 ++ .begin 1 (.acquiring 0) :: steps 1 1
    ++ .begin 0 (.releasing 0) :: steps 0 2 ++ .begin 0 (.tryAcquire 0) :: steps 0 1
    ++ steps 1 1) (by decide +kernel)

/-- Thread 1 sleeps again, and there is no permit. -/
theorem permits_kept_barged :
    barged.KeepsPermits 0 ⟨1, 1⟩ 0 ∧
      barged.Performs 0 10 (.tryAcquire 0) (.replied (.flag true)) ∧
      barged.semaphore 0 12 = ⟨⟨0, 1⟩, [1]⟩ := by
  have hnew : barged.move 0 = .create (.semaphore ⟨1, 1⟩) := rfl
  exact ⟨permits_kept hnew (by decide),
    ⟨⟨0, false⟩, rfl, by decide +kernel, by decide +kernel⟩, by decide +kernel⟩

end Run

end Interlock
