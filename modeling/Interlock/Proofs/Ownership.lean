import Interlock.Proofs.Identity

/-!
# Who holds a mutex

The platform lock and the owner word of a mutex are written one after the other, and many calls
write them. What a call knows of a mutex depends on the phase it has reached, and this is all that
the writes of other threads have to respect.

  * `Grip`: what a thread knows of a mutex, from nothing to holding it; `Call.grip` reads it off
    the phase of a call;
  * `Grip.Fits`: what each grip says about the mutex;
  * `Holding`: every thread's grip fits, the owner word names the thread that has the platform
    lock, and it is empty only while that thread writes it;
  * `LockStep`: what a step of a thread does to a mutex and to the thread's grip;
  * `Run.state_holds`: the invariant holds in every run. In particular a thread that has seen
    its own identity in the owner word is the holder until it gives the mutex up itself.

A thread's grip speaks of its own identity and of the mutex, and of nothing else. So a step has to
be compared with the grips of the other threads only once, in `Holding.step`; of each kind of call
it remains to say which `LockStep` each of its steps is.
-/

namespace Interlock

/-! ## Grips

A grip is what a thread may rely on about a mutex while the others go on: what it has seen that no
other thread can undo. That a mutex is free, for example, is no grip, since the next step of another
thread may take it; that the owner word does not name the thread is one, since no other thread ever
writes the thread's identity into it. -/

/-- What a thread knows of a mutex in the middle of a call. -/
inductive Grip where
  | none
  /-- It is initialized. -/
  | touch
  /-- The thread does not hold it. -/
  | away
  /-- The thread holds it, and the owner word says so. -/
  | full
  /-- The thread has the platform lock, and the owner word is empty. -/
  | blank
  deriving DecidableEq

namespace Grip

/-- What is known at least once the mutex has been seen initialized. -/
def meet : Grip → Grip
  | none => touch
  | g => g

/-- What a grip of thread `t` says about a mutex. -/
def Fits (own : Tid → ThreadId) (lock : Option LockState) (t : Tid) : Grip → Prop
  | none => True
  | touch => ∃ k, lock = some k
  | away => ∃ k, lock = some k ∧ k.holder ≠ some t
  | full => lock = some ⟨some t, own t⟩ ∧ own t ≠ .nobody
  | blank => lock = some ⟨some t, .nobody⟩

variable {own : Tid → ThreadId} {lock : Option LockState} {t u : Tid} {g : Grip}

/-- A thread with a grip on a mutex has seen it initialized. -/
theorem Fits.isSome (h : g.Fits own lock t) (hg : g ≠ none) : ∃ k, lock = some k := by
  cases g with
  | none => exact absurd rfl hg
  | touch => exact h
  | away => exact ⟨_, h.choose_spec.1⟩
  | full => exact ⟨_, h.1⟩
  | blank => exact ⟨_, h⟩

/-- A grip is not affected by another thread that takes the platform lock while it is free, or
writes while it has it. -/
theorem Fits.of_other {k k' : LockState} (h : g.Fits own (some k) u) (hu : u ≠ t)
    (hk : k.holder = Option.none ∨ k.holder = some t)
    (hk' : k'.holder = Option.none ∨ k'.holder = some t) : g.Fits own (some k') u := by
  have hne : k.holder ≠ some u := by
    rcases hk with hk | hk <;> rw [hk] <;> simp [Ne.symm hu]
  cases g with
  | none => trivial
  | touch => exact ⟨k', rfl⟩
  | away =>
    refine ⟨k', rfl, ?_⟩
    rcases hk' with hk' | hk' <;> rw [hk'] <;> simp [Ne.symm hu]
  | full => exact absurd (congrArg LockState.holder (Option.some.inj h.1)) hne
  | blank => exact absurd (congrArg LockState.holder (Option.some.inj h)) hne

end Grip

/-! ## Steps on a mutex

A step reads or writes one of the two words of a mutex, and `LockStep` has a constructor for each
way of doing so, with the grip that the thread needs for it and the grip it has afterwards.
`Holding.step` is the heart of the module: each constructor keeps every thread's grip true. The
writes all reduce to one lemma (`Holding.write`), because only a thread that has the platform lock,
or takes it while it is free, writes anything. -/

/-- What a step of thread `t`, with the identity `me`, does to a mutex and to its own grip. -/
inductive LockStep (t : Tid) (me : ThreadId) :
    Option LockState → Grip → Option LockState → Grip → Prop
  | rest {lock : Option LockState} {g : Grip} : LockStep t me lock g lock g
  | leave {lock : Option LockState} {g : Grip} (hg : g ≠ .blank) : LockStep t me lock g lock .none
  | meet {k : LockState} {g : Grip} : LockStep t me (some k) g (some k) g.meet
  /-- The thread sees that it is not the owner. -/
  | avoid {k : LockState} {g : Grip} (howner : k.owner ≠ me) (hg : g ≠ .blank) :
    LockStep t me (some k) g (some k) .away
  /-- The thread sees that it is the owner. -/
  | verify {k : LockState} {g : Grip} (howner : k.owner = me) (hme : me ≠ .nobody) :
    LockStep t me (some k) g (some k) .full
  | take {k : LockState} {g : Grip} (hfree : k.holder = none) (hg : g ≠ .blank) :
    LockStep t me (some k) g (some (k.take t)) .blank
  | claim {k : LockState} {g : Grip} (hg : g = .none) (hme : me ≠ .nobody) :
    LockStep t me (some k) .blank (some (k.claim me)) g
  | disclaim {k : LockState} : LockStep t me (some k) .full (some (k.claim .nobody)) .blank
  | release {k : LockState} {g : Grip} (hg : g = .none ∨ g = .away) :
    LockStep t me (some k) .blank (some k.release) g
  | init : LockStep t me none .none (some .free) .none

/-- Every thread's grip fits, the owner word names the thread that has the platform lock, and it
is empty only while that thread is about to write it. -/
structure Holding (own : Tid → ThreadId) (lock : Option LockState) (grip : Tid → Grip) : Prop where
  grips : ∀ t, (grip t).Fits own lock t
  owner : ∀ k, lock = some k → k.owner ≠ .nobody → ∃ t, k.holder = some t ∧ own t = k.owner
  unclaimed : ∀ k t, lock = some k → k.holder = some t → k.owner = .nobody → grip t = .blank

namespace Holding

variable {own own' : Tid → ThreadId} {lock lock' : Option LockState} {grip grip' : Tid → Grip}
  {t : Tid}

/-- New identities for threads that had none change nothing. -/
theorem mono (h : Holding own lock grip)
    (hown : ∀ u, own u ≠ .nobody → own' u = own u) : Holding own' lock grip where
  grips u := by
    have hfits := h.grips u
    cases hg : grip u <;> rw [hg] at hfits
    case full =>
      rw [Grip.Fits, hown u hfits.2]
      exact hfits
    all_goals exact hfits
  owner k hk howner := by
    obtain ⟨u, hholder, hu⟩ := h.owner k hk howner
    exact ⟨u, hholder, by rw [hown u (hu ▸ howner)]; exact hu⟩
  unclaimed := h.unclaimed

/-- The thread that reads its own identity in the owner word has the platform lock. -/
theorem holder_of_owner (h : Holding own lock grip)
    (hdistinct : ∀ t u, own t = own u → own t ≠ .nobody → t = u) {k : LockState}
    (hk : lock = some k) (howner : k.owner = own t) (ht : own t ≠ .nobody) :
    k.holder = some t := by
  obtain ⟨u, hholder, hu⟩ := h.owner k hk (howner ▸ ht)
  rw [hholder, hdistinct t u (howner.symm.trans hu.symm) ht]

/-- A thread that has the platform lock reads its own identity in the owner word, unless it is
about to write it. -/
theorem owner_of_holder (h : Holding own lock grip) {k : LockState} (hk : lock = some k)
    (hholder : k.holder = some t) (ht : grip t ≠ .blank) : k.owner = own t := by
  by_cases howner : k.owner = .nobody
  · exact absurd (h.unclaimed k t hk hholder howner) ht
  · obtain ⟨u, hu, hown⟩ := h.owner k hk howner
    rw [hholder] at hu
    cases hu
    exact hown.symm

/-- Whoever stands in the owner word has the platform lock, so it is empty while that is free. -/
theorem owner_of_free (h : Holding own lock grip) {k : LockState} (hk : lock = some k)
    (hfree : k.holder = none) : k.owner = .nobody := by
  by_cases howner : k.owner = .nobody
  · exact howner
  · obtain ⟨u, hu, -⟩ := h.owner k hk howner
    rw [hfree] at hu
    cases hu

/-- Nobody has a grip on a mutex that is not initialized. -/
theorem grip_of_raw (h : Holding own none grip) (u : Tid) : grip u = .none := by
  refine Decidable.byContradiction ?_
  intro hne
  obtain ⟨k, hk⟩ := (h.grips u).isSome hne
  cases hk

/-- A thread changes a mutex whose platform lock is free or its own. -/
theorem write {k k' : LockState} (h : Holding own (some k) grip)
    (hk : k.holder = none ∨ k.holder = some t) (hk' : k'.holder = none ∨ k'.holder = some t)
    (hfits : (grip' t).Fits own (some k') t)
    (howner : k'.owner ≠ .nobody → k'.holder = some t ∧ own t = k'.owner)
    (hunclaimed : k'.holder = some t → k'.owner = .nobody → grip' t = .blank)
    (hothers : ∀ u, u ≠ t → grip' u = grip u) : Holding own (some k') grip' where
  grips u := by
    by_cases hut : u = t
    · exact hut ▸ hfits
    · rw [hothers u hut]
      exact (h.grips u).of_other hut hk hk'
  owner k'' heq hne := by
    cases heq
    exact ⟨t, howner hne⟩
  unclaimed k'' u heq hholder hnobody := by
    cases heq
    rcases hk' with hk' | hk' <;> rw [hk'] at hholder <;> cases hholder
    exact hunclaimed hk' hnobody

/-- A thread that only looks changes nobody's grip but its own. -/
theorem regrip (h : Holding own lock grip) (hfits : (grip' t).Fits own lock t)
    (hblank : grip t = .blank → grip' t = .blank)
    (hothers : ∀ u, u ≠ t → grip' u = grip u) : Holding own lock grip' where
  grips u := by
    by_cases hut : u = t
    · exact hut ▸ hfits
    · rw [hothers u hut]
      exact h.grips u
  owner := h.owner
  unclaimed k u hk hholder hnobody := by
    have hu := h.unclaimed k u hk hholder hnobody
    by_cases hut : u = t
    · exact hut ▸ hblank (hut ▸ hu)
    · rw [hothers u hut]
      exact hu

/-- A mutex that is gone, new or free, and on which nobody works. -/
theorem of_idle (hlock : lock = none ∨ lock = some .free) (hgrip : ∀ u, grip u = .none) :
    Holding own lock grip := by
  constructor
  case grips =>
    intro u
    rw [hgrip u]
    trivial
  case owner =>
    intro k hk hne
    rcases hlock with rfl | rfl <;> cases hk
    exact absurd rfl hne
  case unclaimed =>
    intro k u hk hholder
    rcases hlock with rfl | rfl <;> cases hk
    cases hholder

/-- Every step on a mutex keeps the grips of all threads true. -/
theorem step (h : Holding own lock grip)
    (hdistinct : ∀ t u, own t = own u → own t ≠ .nobody → t = u)
    (hstep : LockStep t (own t) lock (grip t) lock' (grip' t))
    (hothers : ∀ u, u ≠ t → grip' u = grip u) : Holding own lock' grip' := by
  have hfits := h.grips t
  generalize hg : grip t = g at hstep hfits
  generalize hg' : grip' t = g' at hstep
  cases hstep with
  | rest => exact h.regrip (hg' ▸ hfits) (fun hb => hg'.trans (hg.symm.trans hb)) hothers
  | leave hne => exact h.regrip (hg' ▸ trivial) (fun hb => absurd (hg.symm.trans hb) hne) hothers
  | @meet k _ =>
    refine h.regrip ?_ ?_ hothers
    · rw [hg']
      cases g <;> first | exact ⟨k, rfl⟩ | exact hfits
    · intro hb
      rw [hg', ← hg, hb]
      rfl
  | @avoid k _ howner hne =>
    refine h.regrip ?_ (fun hb => absurd (hg.symm.trans hb) hne) hothers
    rw [hg']
    refine ⟨k, rfl, ?_⟩
    intro hholder
    exact howner (h.owner_of_holder rfl hholder (by rwa [hg]))
  | @verify k _ howner hme =>
    -- identities are distinct, so it is this thread that has the platform lock
    have hholder := h.holder_of_owner hdistinct rfl howner hme
    refine h.regrip ?_ ?_ hothers
    · obtain ⟨holder, owner⟩ := k
      cases hholder
      cases howner
      rw [hg']
      exact ⟨rfl, hme⟩
    · intro hb
      rw [← hg, hb] at hfits
      rw [Option.some.inj hfits] at howner
      exact absurd howner.symm hme
  | @take k _ hfree hne =>
    have howner := h.owner_of_free rfl hfree
    refine h.write (.inl hfree) (.inr rfl) ?_ (fun hne => absurd howner hne) (fun _ _ => hg')
      hothers
    obtain ⟨holder, owner⟩ := k
    cases howner
    rw [hg']
    rfl
  | @claim k _ hnone hme =>
    cases Option.some.inj hfits
    refine h.write (.inr rfl) (.inr rfl) ?_ (fun _ => ⟨rfl, rfl⟩)
      (fun _ hnobody => absurd hnobody hme) hothers
    rw [hg', hnone]
    trivial
  | @disclaim k =>
    cases Option.some.inj hfits.1
    exact h.write (.inr rfl) (.inr rfl) (hg' ▸ rfl) (fun hne => absurd rfl hne) (fun _ _ => hg')
      hothers
  | @release k _ hgone =>
    cases Option.some.inj hfits
    refine h.write (.inr rfl) (.inl rfl) ?_ (fun hne => absurd rfl hne) ?_ hothers
    · rw [hg']
      rcases hgone with rfl | rfl
      · trivial
      · exact ⟨_, rfl, by simp [LockState.release]⟩
    · intro hholder
      cases hholder
  | init =>
    refine .of_idle (.inr rfl) ?_
    intro u
    by_cases hut : u = t
    · rw [hut, hg']
    · rw [hothers u hut]
      exact h.grip_of_raw u

end Holding

/-! ## The grip of a call

Which grip each phase has is a table. It is written part by part, as the phases are: a scope has the
grip of its locking, then none while the client's code runs, then that of its unlocking. -/

/-- The grip while locking, by a thread that has the grip `base` when it begins. -/
def LockPhase.grip (base : Grip) : LockPhase → Grip
  | entry => base
  | check _ => base.meet
  | take _ => .away
  | claim _ => .blank

/-- The grip while unlocking, by a thread that has the grip `base` when it begins. -/
def UnlockPhase.grip (base : Grip) : UnlockPhase → Grip
  | entry => base
  | check _ => base.meet
  | disclaim => .full
  | release => .blank

def NativeWaitPhase.grip : NativeWaitPhase → Grip
  | entry | check _ | disclaim _ => .full
  | enqueue _ | refused | claim _ _ => .blank
  | queued _ _ | retake _ _ => .away

def FallbackWaitPhase.grip : FallbackWaitPhase → Grip
  | enter | register | handBack => .full
  | unlocking p => p.grip .full
  | listen | parked _ | depart _ | await _ | lower _ | retract _ | reopen _ => .away
  | locking p _ => p.grip .away

def WaitPhase.grip : WaitPhase → Grip
  | entry | identify => .none
  | check _ => .touch
  | native p => p.grip
  | fallback p => p.grip

def WaitWhilePhase.grip : WaitWhilePhase → Grip
  | waiting _ _ p => p.grip
  | _ => .none

def ScopePhase.grip : ScopePhase → Grip
  | locking p => p.grip .none
  | body => .none
  | unlocking p _ => p.grip .none

def UnlockedPhase.grip : UnlockedPhase → Grip
  | unlocking p => p.grip .none
  | body => .none
  | relocking p _ => p.grip .none

def OncePhase.grip : OncePhase → Grip
  | locking p => p.grip .none
  | unlocking p _ => p.grip .none
  | _ => .none

/-- What a call knows of mutex `l`. -/
def Call.grip (l : LockRef) (s : Store) : Call → Grip
  | lock k p => if k = l then p.grip .none else .none
  | unlock k p => if k = l then p.grip .none else .none
  | scope k p => if k = l then p.grip else .none
  | unlocked k p => if k = l then p.grip else .none
  | wait _ k _ p => if k = l then p.grip else .none
  | waitWhile _ k _ p => if k = l then p.grip else .none
  | once o p => if (s.onces.get o).lock = l then p.grip else .none
  | _ => .none

/-- A calm call has no grip on any mutex. -/
theorem Call.Calm.grip {call : Call} (h : call.Calm) (l : LockRef) (s : Store) :
    call.grip l s = .none := by
  cases h with
  | fresh h =>
    cases call <;> simp only [Call.isFresh, beq_iff_eq, Bool.false_eq_true] at h <;>
      first | rfl | (subst h; exact ite_self _)
  | body h =>
    unfold Call.atBody at h
    split at h <;> first | exact ite_self _ | simp at h
  | @resumed call e h =>
    unfold Call.atBody at h
    split at h <;> first
      | exact ite_self _
      | (rcases e with ⟨_ | _⟩ | _ <;> exact ite_self _)
      | simp at h

/-! ## Steps of calls on a mutex

Here the table is checked against the code: for each part, the step from a phase is a `LockStep`
from the grip of that phase to the grip of the next. What a phase has read as its thread's identity
is taken to be that (`Store.Owns`), which the invariant about identities provides. -/

variable {φ ψ ρ τ : Type} {t : Tid} {s s' : Store} {l : LockRef} {g g' : Grip} {k k' : LockState}

/-- A step of thread `t` on mutex `l`: what it does to that mutex and to the thread's grip on it.
It leaves all other mutexes alone. -/
structure Store.Handles (t : Tid) (l : LockRef) (s : Store) (g : Grip) (s' : Store) (g' : Grip) :
    Prop where
  step : LockStep t (s.ids.own.get t) (s.lock l) g (s'.lock l) g'
  others : ∀ l', l' ≠ l → s'.lock l' = s.lock l'

/-- A step that writes no mutex: it is enough to say what it has seen of this one. -/
theorem Store.Handles.of_same (hstep : LockStep t (s.ids.own.get t) (s.lock l) g (s.lock l) g')
    (hlocks : s'.locks = s.locks := by rfl) : s.Handles t l g s' g' := by
  have hlock (l' : LockRef) : s'.lock l' = s.lock l' := by rw [lock, hlocks]; rfl
  exact ⟨by rwa [hlock l], fun l' _ => hlock l'⟩

/-- A step that writes this mutex and no other. -/
theorem Store.Handles.of_write (hk : s.lock l = some k)
    (hstep : LockStep t (s.ids.own.get t) (some k) g (some k') g')
    (hlocks : s'.locks = s.locks := by rfl) : s.Handles t l g (s'.setLock l k') g' where
  step := by
    rw [hk]
    simpa [lock, setLock, setMutex] using hstep
  others l' hl' := by
    simp [lock, setLock, setMutex, Table.get_set_of_ne _ _ hl', hlocks]

/-- The same for every way a step can go, by the grips of the phases and the grip at the end. -/
def Progress.Handles (t : Tid) (l : LockRef) (s : Store) (g : Grip) (grip : φ → Grip)
    (finished : Grip) : Progress φ ρ → Prop :=
  Meets (fun s' phase => s.Handles t l g s' (grip phase)) (fun s' _ => s.Handles t l g s' finished)
    (fun s' => s.Handles t l g s' .none)

section

variable {grip : φ → Grip} {finished : Grip} {p : Progress φ ρ}

/-- A whole handles a mutex as its part does. -/
theorem Progress.Handles.within (h : p.Handles t l s g grip finished) {wrap : φ → ψ}
    {finish : Store → ρ → Progress ψ τ} {grip' : ψ → Grip} {finished' : Grip}
    (hwrap : ∀ phase, grip' (wrap phase) = grip phase)
    (hfinish : ∀ s' reply, s.Handles t l g s' finished →
      (finish s' reply).Handles t l s g grip' finished') :
    (p.within wrap finish).Handles t l s g grip' finished' :=
  Meets.within h (fun _ phase hs => (hwrap phase).symm ▸ hs) hfinish (fun _ hs => hs)

theorem Progress.Handles.whileUnwinding (h : p.Handles t l s g grip finished)
    (pending : Option Panic) : (p.whileUnwinding pending).Handles t l s g grip finished :=
  Meets.whileUnwinding h pending

theorem Progress.Handles.passOn {reply : ρ} (h : s.Handles t l g s' .none)
    (pending : Option Panic) :
    (Progress.passOn s' reply pending).Handles t l s g grip .none := by
  cases pending <;> exact h

end

theorem Grip.meet_ne_blank (hg : g ≠ .blank) : g.meet ≠ .blank := by
  cases g <;> simp_all [meet]

/-- A step at the beginning of a call, which sees whether the mutex is initialized. -/
theorem Store.Handles.meet (h : ¬ (s.lock l).isNone = true)
    (hlocks : s'.locks = s.locks := by rfl) : s.Handles t l g s' g.meet := by
  obtain ⟨k, hk⟩ := Option.ne_none_iff_exists'.1 (by simpa using h : s.lock l ≠ none)
  refine .of_same ?_ hlocks
  rw [hk]
  exact .meet

/-- What the identity read by a phase is worth. -/
def Store.Owns (t : Tid) (s : Store) (me : Option ThreadId) : Prop :=
  ∀ id, me = some id → s.ids.own.get t = id ∧ id ≠ .nobody

/-- Locking: look for an owner, take the platform lock, write the owner. -/
theorem LockPhase.step_handles (p : LockPhase) (base : Grip) (hbase : base ≠ .blank)
    (hme : s.Owns t p.me?) : (p.step t l s).Handles t l s (p.grip base) (grip base) .none := by
  cases p with
  | entry =>
    simp only [step, Store.violate]
    split
    · exact .of_same (.leave hbase)
    · exact .meet ‹_›
  | check me =>
    obtain ⟨rfl, -⟩ := hme me rfl
    apply Progress.Meets.withLock
    intro k hk
    have hne := Grip.meet_ne_blank hbase
    split
    · exact .of_same (.leave hne)
    · refine .of_same ?_
      rw [hk]
      exact .avoid ‹_› hne
  | take me =>
    apply Progress.Meets.withLock
    intro k hk
    split
    · trivial
    · have hfree : k.holder = none := by simpa [LockState.isLocked] using ‹¬ k.isLocked = true›
      exact .of_write hk (.take hfree (by simp [grip]))
  | claim me =>
    obtain ⟨rfl, hne⟩ := hme me rfl
    apply Progress.Meets.withLock
    intro k hk
    exact .of_write hk (.claim rfl hne)

/-- Unlocking: look for oneself as the owner, clear the owner, release the platform lock. -/
theorem UnlockPhase.step_handles (p : UnlockPhase) (base : Grip) {after : Grip}
    (hbase : base ≠ .blank) (hafter : after = .none ∨ after = .away) (hme : s.Owns t p.me?) :
    (p.step t l s).Handles t l s (p.grip base) (grip base) after := by
  cases p with
  | entry =>
    simp only [step, Store.violate]
    split
    · exact .of_same (.leave hbase)
    · exact .meet ‹_›
  | check me =>
    obtain ⟨rfl, hne⟩ := hme me rfl
    apply Progress.Meets.withLock
    intro k hk
    split
    · refine .of_same ?_
      rw [hk]
      exact .verify ‹_› hne
    · exact .of_same (.leave (Grip.meet_ne_blank hbase))
  | disclaim =>
    apply Progress.Meets.withLock
    intro k hk
    exact .of_write hk .disclaim
  | release =>
    apply Progress.Meets.withLock
    intro k hk
    exact .of_write hk (.release hafter)

/-- A native wait clears the owner, sleeps without the platform lock, and writes the owner when it
has it back. -/
theorem NativeWaitPhase.step_handles {c : CondRef} {timeout : Option Duration}
    (p : NativeWaitPhase) (hme : s.Owns t p.me?) :
    (p.step t c l timeout s).Handles t l s p.grip grip .none := by
  cases p with
  | entry =>
    simp only [step, Store.violate]
    split
    · exact .of_same (.leave (by simp [grip]))
    · exact .meet ‹_›
  | check me =>
    apply Progress.Meets.withLock
    intro k hk
    split
    · exact .of_same .rest
    · exact .of_same (.leave (by simp [grip]))
  | disclaim me =>
    apply Progress.Meets.withLock
    intro k hk
    exact .of_write hk .disclaim
  | enqueue me =>
    simp only [step, Store.withNative]
    split
    · apply Progress.Meets.withLock
      intro k hk
      split
      · exact .of_write hk (.release (.inr rfl))
      · exact .of_same .rest
    · trivial
  | refused =>
    apply Progress.Meets.withLock
    intro k hk
    exact .of_write hk (.release (.inl rfl))
  | queued me deadline =>
    simp only [step, Store.withNative]
    (repeat' split) <;> first | trivial | exact .of_same .rest
  | retake me woken =>
    apply Progress.Meets.withLock
    intro k hk
    split
    · trivial
    · have hfree : k.holder = none := by simpa [LockState.isLocked] using ‹¬ k.isLocked = true›
      exact .of_write hk (.take hfree (by simp [grip]))
  | claim me woken =>
    obtain ⟨rfl, hne⟩ := hme me rfl
    apply Progress.Meets.withLock
    intro k hk
    exact .of_write hk (.claim rfl hne)

/-- A portable wait keeps the mutex until it has registered, unlocks it, and locks it when it
leaves. -/
theorem FallbackWaitPhase.step_handles {c : CondRef} {timeout : Option Duration}
    (p : FallbackWaitPhase) (hme : s.Owns t p.me?) :
    (p.step t c l timeout s).Handles t l s p.grip grip .none := by
  cases p with
  | unlocking p =>
    exact (p.step_handles .full (by decide) (.inr rfl) hme).within (fun _ => rfl) fun _ _ hs => hs
  | locking p wokenBy =>
    exact (p.step_handles .away (by decide) hme).within (fun _ => rfl) fun _ _ hs => hs
  | _ =>
    simp only [step, Store.violate, Store.withFallback, afterDeparture]
    (repeat' split) <;> first
      | trivial
      | exact .of_same .rest
      | exact .of_same (.leave (by simp [grip]))

-- a sleeper has given the mutex up
example : FallbackWaitPhase.grip (.parked none) = .away := by decide +kernel

/-- A wait checks that its thread is the owner before its backend begins. -/
theorem WaitPhase.step_handles {c : CondRef} {timeout : Option Duration} (p : WaitPhase)
    (hme : s.Owns t p.me?) : (p.step t c l timeout s).Handles t l s p.grip grip .none := by
  cases p with
  | entry =>
    simp only [step, Store.violate]
    split <;> exact .of_same .rest
  | identify =>
    simp only [step, Store.violate]
    split
    · exact .of_same .rest
    · exact .meet ‹_›
  | check me =>
    obtain ⟨rfl, hne⟩ := hme me rfl
    apply Progress.Meets.withLock
    intro k hk
    have hverify (howner : ¬ k.owner ≠ s.ids.own.get t) : s.Handles t l .touch s .full := by
      refine .of_same ?_
      rw [hk]
      exact .verify (Decidable.not_not.1 howner) hne
    split
    · exact .of_same (.leave (by simp [grip]))
    · split
      · trivial
      · exact hverify ‹_›
      · exact hverify ‹_›
  | native p => exact (p.step_handles hme).within (fun _ => rfl) fun _ _ hs => hs
  | fallback p => exact (p.step_handles hme).within (fun _ => rfl) fun _ _ hs => hs

/-- A loop has a grip on the mutex only while it waits: its condition runs without the loop knowing
anything about it. -/
theorem WaitWhilePhase.step_handles {c : CondRef} {timeout : Option Duration} (p : WaitWhilePhase)
    (hme : s.Owns t p.me?) : (p.step t c l timeout s).Handles t l s p.grip grip .none := by
  cases p with
  | waiting start rest p => exact (p.step_handles hme).within (fun _ => rfl) fun _ _ hs => hs
  | _ =>
    simp only [step]
    (repeat' split) <;> first | trivial | exact .of_same .rest

/-- A scope locks and unlocks. -/
theorem ScopePhase.step_handles (p : ScopePhase) (hme : s.Owns t p.me?) :
    (p.step t l s).Handles t l s p.grip grip .none := by
  cases p with
  | locking p => exact (p.step_handles .none (by decide) hme).within (fun _ => rfl) fun _ _ hs => hs
  | body => trivial
  | unlocking p pending =>
    exact ((p.step_handles .none (by decide) (.inl rfl) hme).whileUnwinding pending).within
      (fun _ => rfl) fun _ _ hs => .passOn hs pending

/-- A scope that is unlocked for a while unlocks and locks. -/
theorem UnlockedPhase.step_handles (p : UnlockedPhase) (hme : s.Owns t p.me?) :
    (p.step t l s).Handles t l s p.grip grip .none := by
  cases p with
  | unlocking p =>
    exact (p.step_handles .none (by decide) (.inl rfl) hme).within (fun _ => rfl) fun _ _ hs => hs
  | body => trivial
  | relocking p pending =>
    exact ((p.step_handles .none (by decide) hme).whileUnwinding pending).within (fun _ => rfl)
      fun _ _ hs => .passOn hs pending

/-- A run-once call locks and unlocks the mutex of its gate. -/
theorem OncePhase.step_handles {o : OnceRef} (p : OncePhase) (hme : s.Owns t p.me?) :
    (p.step t o s).Handles t (s.onces.get o).lock s p.grip grip .none := by
  cases p with
  | locking p => exact (p.step_handles .none (by decide) hme).within (fun _ => rfl) fun _ _ hs => hs
  | callback => trivial
  | unlocking p finish =>
    exact ((p.step_handles .none (by decide) (.inl rfl) hme).whileUnwinding finish.panic?).within
      (fun _ => rfl) fun _ _ hs => .passOn hs finish.panic?
  | _ =>
    simp only [step]
    (repeat' split) <;> exact .of_same .rest

/-- What a step of a call of thread `t` does to a mutex and to the thread's grip on it. -/
def Progress.Locks (t : Tid) (l : LockRef) (s : Store) (g : Grip) : Progress Call Reply → Prop :=
  Meets (fun s' call => LockStep t (s.ids.own.get t) (s.lock l) g (s'.lock l) (call.grip l s'))
    (fun s' _ => LockStep t (s.ids.own.get t) (s.lock l) g (s'.lock l) .none)
    (fun s' => LockStep t (s.ids.own.get t) (s.lock l) g (s'.lock l) .none)

/-- A step on one mutex, seen from any mutex. -/
theorem Progress.Handles.locks {k : LockRef} {grip : φ → Grip} {p : Progress φ ρ}
    (h : p.Handles t k s g grip .none) {call : φ → Call} {reply : ρ → Reply}
    (hframe : (Call.lift call reply p).Keeps s.Frame) (l : LockRef)
    (hcall : ∀ s' phase, s.Frame s' →
      (call phase).grip l s' = if k = l then grip phase else .none) :
    (Call.lift call reply p).Locks t l s (if k = l then g else .none) := by
  -- the mutex is the one that the phase works on, or another one
  have hstep {s' : Store} {g' : Grip} (hs : s.Handles t k g s' g') :
      LockStep t (s.ids.own.get t) (s.lock l) (if k = l then g else .none) (s'.lock l)
        (if k = l then g' else .none) := by
    split
    · subst l
      exact hs.step
    · rw [hs.others l (Ne.symm ‹_›)]
      exact .rest
  have hlast {s' : Store} (hs : s.Handles t k g s' .none) := ite_self Grip.none ▸ hstep hs
  cases p with
  | next s' phase =>
    change LockStep t _ _ _ _ ((call phase).grip l s')
    rw [hcall s' phase hframe]
    exact hstep h
  | done s' reply' => exact hlast h
  | fault s' why => exact hlast h
  | blocked => trivial
  | abort s' => exact hlast h

/-- A step that writes no mutex, of a call that has no grip on this one. -/
theorem Progress.Keeps.locks {p : Progress Call Reply} (h : p.Keeps (·.locks = s.locks))
    {l : LockRef} (hp : ∀ s' call, p = .next s' call → call.grip l s' = .none) :
    p.Locks t l s .none := by
  have hrest {s' : Store} (hs : s'.locks = s.locks) :
      LockStep t (s.ids.own.get t) (s.lock l) .none (s'.lock l) .none := by
    rw [show s'.lock l = s.lock l by rw [Store.lock, hs]; rfl]
    exact .rest
  cases p with
  | next s' call =>
    change LockStep t _ _ _ _ (call.grip l s')
    rw [hp s' call rfl]
    exact hrest h
  | done s' reply => exact hrest h
  | fault s' why => exact hrest h
  | blocked => trivial
  | abort s' => exact hrest h

theorem WakeupPhase.step_locks {c : CondRef} {event : WakeEvent} {choice : Choice}
    (p : WakeupPhase) : (p.step c event choice s).Keeps (·.locks = s.locks) := by
  cases p <;> simp only [step, Store.violate, Store.withNative, Store.withFallback] <;>
    (repeat' split) <;> first | exact trivial | rfl

theorem Call.grip_of_aside {call : Call} (h : call.isAside = true) : call.grip l s = .none := by
  cases call <;> first | rfl | cases h

/-- What a step of any call but a destruction does to a mutex. -/
theorem Call.step_locks {choice : Choice} (l : LockRef) {call : Call} (hme : s.Owns t call.me?)
    (hdestroy : ∀ o unwinding, call ≠ .destroy o unwinding) :
    (call.step t choice s).Locks t l s (call.grip l s) := by
  have hframe : (call.step t choice s).Keeps s.Frame := call.step_frame
  -- a call without code of a mutex stays one, whatever it does
  have haside {call : Call} (h : call.isAside = true) :
      (call.step t choice s).Locks t l s (call.grip l s) := by
    rw [grip_of_aside h]
    have hkeeps : (call.step t choice s).Keeps (·.locks = s.locks) :=
      (step_aside h).imp fun _ hs => hs.1
    refine hkeeps.locks ?_
    intro s' call' hnext
    apply grip_of_aside
    rw [← isAside_origin, origin_of_step hnext, isAside_origin, h]
  cases call with
  | lock k p => exact (p.step_handles .none (by decide) hme).locks hframe l fun _ _ _ => rfl
  | unlock k p =>
    exact (p.step_handles .none (by decide) (.inl rfl) hme).locks hframe l fun _ _ _ => rfl
  | scope k p => exact (p.step_handles hme).locks hframe l fun _ _ _ => rfl
  | unlocked k p => exact (p.step_handles hme).locks hframe l fun _ _ _ => rfl
  | wait c k timeout p => exact (p.step_handles hme).locks hframe l fun _ _ _ => rfl
  | waitWhile c k timeout p => exact (p.step_handles hme).locks hframe l fun _ _ _ => rfl
  | once o p =>
    refine (p.step_handles hme).locks hframe l ?_
    intro s' phase hframe
    simp only [grip, hframe.gates]
  | wakeup c event p =>
    have hkeeps : (step t choice s (wakeup c event p)).Keeps (·.locks = s.locks) :=
      p.step_locks.within fun _ _ hs => hs
    refine hkeeps.locks ?_
    intro s' call' hnext
    have horigin := origin_of_step hnext
    cases call' <;> first | rfl | cases horigin
  | initMutex k =>
    simp only [step, single, initMutexStep, Store.violate]
    split
    · exact .rest
    · by_cases hk : l = k
      · subst l
        have hnone : s.lock k = none := by simpa using ‹¬ (s.lock k).isSome = true›
        change LockStep t _ (s.lock k) .none (((s.setLock k .free).locks.get k).state) .none
        rw [hnone, Store.setLock, Store.setMutex, Table.get_set_self]
        exact .init
      · change LockStep t _ (s.lock l) .none (((s.setLock k .free).locks.get l).state) .none
        rw [Store.setLock, Store.setMutex, Table.get_set_of_ne _ _ hk]
        exact .rest
  | initCond c backend =>
    simp only [step, single, initCondStep, Store.violate]
    split <;> exact .rest
  | destroy o unwinding => exact absurd rfl (hdestroy o unwinding)
  | _ => exact haside rfl

/-! ## Runs

The grip of a thread is a view of its innermost call, so the invariant goes from move to move by the
step of one thread. What remains are the moves that make a mutex or take one away: there nobody has
a grip on it, because nobody works on it (`Machine.Touches`). -/

/-- The destructor of a mutex takes away that mutex. -/
theorem Store.destroyMutex_lock (s : Store) (l k : LockRef) (unwinding : Bool) :
    (s.destroyMutex k unwinding).1.lock l = if l = k then none else s.lock l := by
  rw [destroyMutex_fst]
  simp only [lock, setMutex, Table.get_set]
  split <;> rfl

theorem Store.destroyCond_lock (s : Store) (c : CondRef) (unwinding : Bool) (l : LockRef) :
    (s.destroyCond c unwinding).1.lock l = s.lock l := by
  rw [destroyCond_fst]
  rfl

/-- A destruction takes away the mutexes that go with the object, and no others. -/
theorem Store.destroy_lock (s : Store) (o : Object) (unwinding : Bool) (l : LockRef) :
    (s.destroy o unwinding).1.lock l = s.lock l ∨
      (s.destroy o unwinding).1.lock l = none ∧ .mutex l ∈ o.parts s := by
  have hmutex (k : LockRef) : (s.destroyMutex k unwinding).1.lock l = s.lock l ∨
      (s.destroyMutex k unwinding).1.lock l = none ∧ l = k := by
    rw [destroyMutex_lock]
    split
    · exact .inr ⟨rfl, ‹_›⟩
    · exact .inl rfl
  cases o with
  | mutex k =>
    rcases hmutex k with hsame | ⟨hgone, rfl⟩
    · exact .inl hsame
    · exact .inr ⟨hgone, by simp [Object.parts]⟩
  | once o =>
    rcases hmutex (s.onces.get o).lock with hsame | ⟨hgone, rfl⟩
    · exact .inl hsame
    · exact .inr ⟨hgone, by simp [Object.parts]⟩
  | condition c => exact .inl (s.destroyCond_lock c unwinding l)
  | semaphore r => exact .inl rfl
  | events e => exact .inl rfl
  | thread r =>
    refine .inl ?_
    rw [destroy, reportDrop_fst]
    rfl
  | monitor mo =>
    simp only [destroy, destroyMonitor, releaseShare]
    split
    -- the last user of a shared mutex takes it along
    · rw [destroyCond_lock, destroyMutex_lock]
      split
      · refine .inr ⟨rfl, ?_⟩
        subst l
        simp [Object.parts, ‹s.lockUsers.get _ ≤ 1›]
      · exact .inl rfl
    · rw [destroyCond_lock]
      exact .inl rfl

namespace Machine

variable {m m' : Machine} {move : Move}

def grip (m : Machine) (l : LockRef) (t : Tid) : Grip := m.see (Call.grip l m.store) .none t

/-- What the owner word of a mutex and the phases of all calls say agrees with who has the
platform lock. -/
def Holds (m : Machine) (l : LockRef) : Prop :=
  Holding m.store.ids.own.get (m.store.lock l) (m.grip l)

theorem holds_initial (l : LockRef) : initial.Holds l := .of_idle (.inl rfl) fun _ => rfl

/-- A call has no grip on a mutex that it does not work on. -/
theorem grip_of_not_mem {s : Store} {call : Call} {l : LockRef}
    (h : .mutex l ∉ call.objects s) : call.grip l s = .none := by
  cases call <;> first
    | rfl
    | (simp only [Call.objects, List.mem_cons, List.not_mem_nil, Object.mutex.injEq, reduceCtorEq,
        false_or, or_false] at h
       exact if_neg (Ne.symm h))

/-- Nobody has a grip on a mutex that may be destroyed. -/
theorem Sound.grip_of_unused (hsound : m.Sound) {o : Object} (h : m.unused o = true) {l : LockRef}
    (hl : .mutex l ∈ o.parts m.store) (t : Tid) : m.grip l t = .none := by
  apply see_eq
  intro call hcall
  exact grip_of_not_mem (not_mem_objects hsound h hl (mem_of_call? hcall))

/-- Nobody has a grip on a mutex that does not exist yet. -/
theorem Sound.grip_of_new (hsound : m.Sound) {l : Nat} (hl : m.store.nextHandle ≤ l) (t : Tid) :
    m.grip l t = .none := by
  apply see_eq
  intro call hcall
  apply grip_of_not_mem
  intro hmem
  have hknown := hsound.known t call (mem_of_call? hcall)
  exact Nat.not_lt.2 hl (Call.handle_lt_of_knows hknown hmem)

/-- What a call has read as its thread's identity is that. -/
theorem Identified.owns (h : m.Identified) {t : Tid} {call : Call} (hcall : m.call? t = some call) :
    m.store.Owns t call.me? := by
  have hme : (m.see Call.badge .blank t).me = call.me? := by
    rw [see_of_call? hcall]
    cases call <;> first | rfl | (rename_i p; cases p <;> rfl)
  intro id hid
  exact h.read t id (hme.trans hid)

/-- What a move of thread `t` does to a mutex and to the thread's grip on it: a step, or the mutex
comes or goes while nobody works on it. -/
def Touches (m : Machine) (l : LockRef) (t : Tid) (s' : Store) (g g' : Grip) : Prop :=
  LockStep t (m.store.ids.own.get t) (m.store.lock l) g (s'.lock l) g' ∨
    (s'.lock l = none ∨ s'.lock l = some .free) ∧ g' = g ∧ ∀ u, m.grip l u = .none

/-- A step of a call touches every mutex as its thread's grip allows. -/
theorem Sound.touches_step (hsound : m.Sound) (hids : m.Identified) (l : LockRef) {t : Tid}
    {choice : Choice} {call : Call} (hcall : m.call? t = some call)
    (hunused : ∀ o unwinding, call = .destroy o unwinding → m.unused o = true) :
    (call.step t choice m.store).Meets
      (fun s' call' => m.Touches l t s' (call.grip l m.store) (call'.grip l s'))
      (fun s' _ => m.Touches l t s' (call.grip l m.store) .none)
      (fun s' => m.Touches l t s' (call.grip l m.store) .none) := by
  by_cases hdestroy : ∃ o unwinding, call = .destroy o unwinding
  · obtain ⟨o, unwinding, rfl⟩ := hdestroy
    have htouches : m.Touches l t (m.store.destroy o unwinding).1 .none .none := by
      rcases m.store.destroy_lock o unwinding l with hlock | ⟨hlock, hpart⟩
      · refine .inl ?_
        rw [hlock]
        exact .rest
      · exact .inr ⟨.inl hlock, rfl, hsound.grip_of_unused (hunused o unwinding rfl) hpart⟩
    exact (Call.ends_destroy t choice m.store o unwinding).meets (fun _ => htouches) htouches
  · have hstep : (call.step t choice m.store).Locks t l m.store (call.grip l m.store) :=
      Call.step_locks l (hids.owns hcall) fun o unwinding heq => hdestroy ⟨o, unwinding, heq⟩
    exact hstep.mono (fun _ _ => .inl) (fun _ _ => .inl) (fun _ => .inl)

/-- A move touches a mutex through one thread at most. -/
theorem Change.touches (hchange : m.Change move m') (hsound : m.Sound) (hids : m.Identified)
    (l : LockRef) :
    ∃ t, m.Touches l t m'.store (m.grip l t) (m'.grip l t) ∧
      ∀ u, u ≠ t → m'.grip l u = m.grip l u := by
  have hview : m.View (fun s call => call.grip l s) .none := by
    refine ⟨fun s _ hcalm => hcalm.grip l s, ?_⟩
    intro s' call hknown hgates
    cases call with
    | once o p =>
      have ho : o < m.store.nextHandle := Call.handle_lt_of_knows hknown List.mem_cons_self
      simp only [Call.grip, hgates o ho]
    | _ => rfl
  refine Change.see (Q := m.Touches l) hview hsound ?_ ?_ (fun _ _ => rfl) hchange
  · intro t s' g hgrows
    rcases hgrows.locks l with hl | ⟨hle, -, hl⟩
    · refine .inl ?_
      rw [hl]
      exact .rest
    · exact .inr ⟨hl, rfl, hsound.grip_of_new hle⟩
  · intro t choice call _ hcall hunused
    exact hsound.touches_step hids l hcall hunused

/-- Every change keeps owner words, platform locks and phases in agreement. -/
theorem Holds.change {l : LockRef} (h : m.Holds l) (hsound : m.Sound) (hids : m.Identified)
    (hchange : m.Change move m') : m'.Holds l := by
  obtain ⟨t, htouches, hothers⟩ := hchange.touches hsound hids l
  refine Holding.mono ?_ fun u hu => hchange.own hsound hu
  -- first the step under the old identities, then the identities that it draws
  rcases htouches with hstep | ⟨hlock, ht, hnone⟩
  · exact Holding.step h hids.distinct hstep hothers
  · refine .of_idle hlock ?_
    intro u
    by_cases hut : u = t
    · rw [hut, ht, hnone]
    · rw [hothers u hut, hnone]

end Machine

/-- Owner words, platform locks and the phases of all calls agree all the time. -/
theorem Run.state_holds (r : Run) (l : LockRef) (i : Nat) : (r.state i).Holds l := by
  induction i with
  | zero => exact Machine.holds_initial l
  | succ i ih => exact ih.change (r.state_sound i) (r.state_identified i) (r.state_change i)

/-! ## What a holder can rely on

The invariant is used to see that a call does not fail and is not stopped: where its grip fits, the
checks of the code come out as they should. -/

variable {own : Tid → ThreadId} {grip : Tid → Grip}

/-- A holder that unlocks is neither stopped nor found to be somebody else. -/
theorem UnlockPhase.step_moves (p : UnlockPhase) (hme : s.Owns t p.me?)
    (hfits : (p.grip .full).Fits s.ids.own.get (s.lock l) t) :
    (p.step t l s).Succeeds ∧ p.step t l s ≠ .blocked := by
  cases p with
  | entry =>
    have hlock := hfits.1
    simp [step, hlock, Store.currentId, Progress.Succeeds, Progress.Meets]
  | check me =>
    obtain ⟨rfl, -⟩ := hme me rfl
    have hlock := hfits.1
    simp [step, Store.withLock, hlock, Progress.Succeeds, Progress.Meets]
  | disclaim =>
    have hlock := hfits.1
    simp [step, Store.withLock, hlock, Progress.Succeeds, Progress.Meets]
  | release =>
    have hlock : s.lock l = _ := hfits
    simp [step, Store.withLock, hlock, Progress.Succeeds, Progress.Meets]

/-- A thread that does not hold a mutex can lock it: nothing fails, and nothing stops it but
another thread that has the platform lock. -/
theorem LockPhase.step_moves (p : LockPhase) (hme : s.Owns t p.me?)
    (hfits : (p.grip .away).Fits s.ids.own.get (s.lock l) t)
    (hholding : Holding s.ids.own.get (s.lock l) grip)
    (hdistinct : ∀ t u, s.ids.own.get t = s.ids.own.get u → s.ids.own.get t ≠ .nobody → t = u) :
    (p.step t l s).Succeeds ∧ (p.step t l s = .blocked → ∃ me, p = take me) := by
  cases p with
  | entry =>
    obtain ⟨k, hk, -⟩ := hfits
    simp [step, hk, Store.currentId, Progress.Succeeds, Progress.Meets]
  | check me =>
    obtain ⟨rfl, hne⟩ := hme me rfl
    obtain ⟨k, hk, hholder⟩ := hfits
    have howner : k.owner ≠ s.ids.own.get t := by
      intro howner
      exact hholder (hholding.holder_of_owner hdistinct hk howner hne)
    simp [step, Store.withLock, hk, howner, Progress.Succeeds, Progress.Meets]
  | take me =>
    refine ⟨?_, fun _ => ⟨me, rfl⟩⟩
    simp only [step, Store.withLock]
    (repeat' split) <;> trivial
  | claim me =>
    have hlock : s.lock l = _ := hfits
    simp [step, Store.withLock, hlock, Progress.Succeeds, Progress.Meets]

end Interlock
