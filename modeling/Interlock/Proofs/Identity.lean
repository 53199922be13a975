import Interlock.Proofs.Stack

/-!
# Who is who

A mutex knows its holder by an identity, so what it says is worth no more than identities are: no
two threads have the same one, and no thread has the one that means nobody.

  * `Call.badge`: the identities that a call has in its hands, one that it has drawn for a thread
    to be and the one it has read as its own thread's;
  * `Identities.Fits`: identities are distinct, those in somebody's hands included, and what a
    thread has read as its own is its own;
  * `Run.state_identified`: this holds in every run.

An identity exists before its thread does. The start draws it and hands it over, and in between it
stands in no thread's place; only calls in progress know it. So the invariant speaks of what calls
have in their hands as well as of threads, and `Passes` lists what a step can do with that: keep it,
read the identity of its own thread, draw one for another thread, or install one.
-/

namespace Interlock

/-- The identities in the hands of a call. -/
structure Badge where
  /-- An identity drawn for another thread, or given to this one and not yet installed. -/
  token : Option ThreadId
  /-- The identity that the call has read as its own thread's. -/
  me : Option ThreadId

namespace Badge

def blank : Badge := ⟨none, none⟩

end Badge

/-! ## The identity that a phase carries

An operation asks for its thread's identity once and compares with what it was told from then on, so
between the two the identity is in the phase. `me?` reads it there, for each kind of part. -/

def LockPhase.me? : LockPhase → Option ThreadId
  | entry => none
  | check me | take me | claim me => some me

def UnlockPhase.me? : UnlockPhase → Option ThreadId
  | check me => some me
  | _ => none

def NativeWaitPhase.me? : NativeWaitPhase → Option ThreadId
  | check me | disclaim me | enqueue me | queued me _ | retake me _ | claim me _ => some me
  | _ => none

def FallbackWaitPhase.me? : FallbackWaitPhase → Option ThreadId
  | unlocking p => p.me?
  | locking p _ => p.me?
  | _ => none

def WaitPhase.me? : WaitPhase → Option ThreadId
  | check me => some me
  | native p => p.me?
  | fallback p => p.me?
  | _ => none

def WaitWhilePhase.me? : WaitWhilePhase → Option ThreadId
  | waiting _ _ p => p.me?
  | _ => none

def ScopePhase.me? : ScopePhase → Option ThreadId
  | locking p => p.me?
  | body => none
  | unlocking p _ => p.me?

def UnlockedPhase.me? : UnlockedPhase → Option ThreadId
  | unlocking p => p.me?
  | body => none
  | relocking p _ => p.me?

def OncePhase.me? : OncePhase → Option ThreadId
  | locking p => p.me?
  | unlocking p _ => p.me?
  | _ => none

def Call.me? : Call → Option ThreadId
  | lock _ p => p.me?
  | unlock _ p => p.me?
  | scope _ p => p.me?
  | unlocked _ p => p.me?
  | wait _ _ _ p => p.me?
  | waitWhile _ _ _ p => p.me?
  | once _ p => p.me?
  | _ => none

/-- The identities in the hands of a call. -/
def Call.badge : Call → Badge
  | start _ (.spawn id) => ⟨some id, none⟩
  | install id => ⟨some id, none⟩
  | call => ⟨none, call.me?⟩

/-- A calm call has no identity in its hands. -/
theorem Call.Calm.badge {call : Call} (h : call.Calm) : call.badge = .blank := by
  cases h with
  | fresh h =>
    cases call <;> simp only [Call.isFresh, beq_iff_eq, Bool.false_eq_true] at h <;>
      first | rfl | (subst h; rfl)
  | body h =>
    unfold Call.atBody at h
    split at h <;> first | rfl | simp at h
  | @resumed call e h =>
    unfold Call.atBody at h
    split at h <;> first | rfl | (rcases e with ⟨_ | _⟩ | _ <;> rfl) | simp at h

/-! ## What a step does to identities

There are three things to it. A thread reads its own identity, which may give it one (`Reads`); it
draws one for a thread that it starts; and a started thread installs the one it was given. `Passes`
has a constructor for each, and `Fits.pass` shows of each that identities still fit. -/

namespace Identities

variable {t : Tid} {ids ids' : Identities} {badge badge' : Tid → Badge}

/-- A thread that asks for its identity has one already, or is given the next one. -/
theorem current_cases (ids : Identities) (t : Tid) :
    ids.own.get t ≠ .nobody ∧ ids.current t = (ids, ids.own.get t) ∨
      ids.own.get t = .nobody ∧
        ids.current t = (ids.draw.1.install t ids.draw.2, ids.draw.2) := by
  by_cases h : ids.own.get t = .nobody
  · exact .inr ⟨h, by simp only [current, h, if_true]⟩
  · exact .inl ⟨h, by simp only [current, h, if_false]⟩

/-- A phase that reads the identity of its thread, or forgets it. -/
inductive Reads (t : Tid) (ids : Identities) (me : Option ThreadId) :
    Identities → Option ThreadId → Prop
  | keep {me' : Option ThreadId} (h : me' = none ∨ me' = me) : Reads t ids me ids me'
  | current {me' : Option ThreadId} (h : me' = none ∨ me' = some (ids.current t).2) :
    Reads t ids me (ids.current t).1 me'

/-- What a step of thread `t` does to the source of identities and to those in its hands. -/
inductive Passes (t : Tid) (ids : Identities) (b : Badge) : Identities → Badge → Prop
  | keep : Passes t ids b ids b
  | reads {ids' : Identities} {me' : Option ThreadId} (h : Reads t ids b.me ids' me') :
    Passes t ids b ids' ⟨none, me'⟩
  | draw : Passes t ids b ids.draw.1 ⟨some ids.draw.2, none⟩
  | install {id : ThreadId} (hb : b.token = some id) (hown : ids.own.get t = .nobody) :
    Passes t ids b (ids.install t id) .blank

/-- Identities are distinct, and what a thread has read as its own is its own. -/
structure Fits (ids : Identities) (badge : Tid → Badge) : Prop where
  bound : ∀ t, (ids.own.get t).toNat ≤ ids.last
  distinct : ∀ t u, ids.own.get t = ids.own.get u → ids.own.get t ≠ .nobody → t = u
  token : ∀ t id, (badge t).token = some id → id ≠ .nobody ∧ id.toNat ≤ ids.last
  untaken : ∀ t id, (badge t).token = some id → ∀ u, ids.own.get u ≠ id
  single : ∀ t u id, (badge t).token = some id → (badge u).token = some id → t = u
  read : ∀ t id, (badge t).me = some id → ids.own.get t = id ∧ id ≠ .nobody

/-- What is in the hands of a thread is in those of thread `t`, or was there before. -/
theorem hands_cases {β : Type} (f : Badge → Option β) (hothers : ∀ u, u ≠ t → badge' u = badge u)
    {u : Tid} {b : β} (hu : f (badge' u) = some b) :
    u = t ∧ f (badge' t) = some b ∨ u ≠ t ∧ f (badge u) = some b := by
  by_cases hut : u = t
  · exact .inl ⟨hut, hut ▸ hu⟩
  · exact .inr ⟨hut, hothers u hut ▸ hu⟩

/-- A thread takes nothing into its hands but its own identity. -/
theorem Fits.keep (h : ids.Fits badge)
    (htoken : (badge' t).token = none ∨ (badge' t).token = (badge t).token)
    (hme : ∀ id, (badge' t).me = some id → ids.own.get t = id ∧ id ≠ .nobody)
    (hothers : ∀ u, u ≠ t → badge' u = badge u) : ids.Fits badge' := by
  -- whatever is in a thread's hands now was there before
  have hold {u : Tid} {id : ThreadId} (hu : (badge' u).token = some id) :
      (badge u).token = some id := by
    rcases hands_cases Badge.token hothers hu with ⟨rfl, hu⟩ | ⟨-, hu⟩
    · rcases htoken with htoken | htoken
      · rw [htoken] at hu
        cases hu
      · exact htoken ▸ hu
    · exact hu
  constructor
  case bound => exact h.bound
  case distinct => exact h.distinct
  case token =>
    intro u id hu
    exact h.token u id (hold hu)
  case untaken =>
    intro u id hu
    exact h.untaken u id (hold hu)
  case single =>
    intro u v id hu hv
    exact h.single u v id (hold hu) (hold hv)
  case read =>
    intro u id hu
    rcases hands_cases Badge.me hothers hu with ⟨rfl, hu⟩ | ⟨-, hu⟩
    · exact hme id hu
    · exact h.read u id hu

/-- A thread draws an identity for another one. -/
theorem Fits.draw (h : ids.Fits badge) (hb : badge' t = ⟨some ids.draw.2, none⟩)
    (hothers : ∀ u, u ≠ t → badge' u = badge u) : ids.draw.1.Fits badge' := by
  -- nothing has the next identity yet, because all of them are bounded by the last one
  have huntaken (u : Tid) : ids.own.get u ≠ ⟨ids.last + 1⟩ := by
    intro heq
    have hbound := h.bound u
    rw [heq] at hbound
    exact Nat.not_succ_le_self _ hbound
  have hundrawn {u : Tid} (hu : (badge u).token = some ⟨ids.last + 1⟩) : False :=
    Nat.not_succ_le_self _ (h.token u _ hu).2
  have hnew {id : ThreadId} (hid : (badge' t).token = some id) : id = ⟨ids.last + 1⟩ := by
    rw [hb] at hid
    exact (Option.some.inj hid).symm
  constructor
  case bound =>
    intro u
    exact Nat.le_succ_of_le (h.bound u)
  case distinct => exact h.distinct
  case token =>
    intro u id hu
    rcases hands_cases Badge.token hothers hu with ⟨rfl, hu⟩ | ⟨-, hu⟩
    · rw [hnew hu]
      exact ⟨by simp [ThreadId.nobody], Nat.le_refl _⟩
    · exact (h.token u id hu).imp_right Nat.le_succ_of_le
  case untaken =>
    intro u id hu
    rcases hands_cases Badge.token hothers hu with ⟨rfl, hu⟩ | ⟨-, hu⟩
    · rw [hnew hu]
      exact huntaken
    · exact h.untaken u id hu
  case single =>
    intro u v id hu hv
    rcases hands_cases Badge.token hothers hu with ⟨rfl, hu⟩ | ⟨-, hu⟩ <;>
      rcases hands_cases Badge.token hothers hv with ⟨rfl, hv⟩ | ⟨-, hv⟩
    · rfl
    · exact (hundrawn (hnew hu ▸ hv)).elim
    · exact (hundrawn (hnew hv ▸ hu)).elim
    · exact h.single u v id hu hv
  case read =>
    intro u id hu
    rcases hands_cases Badge.me hothers hu with ⟨rfl, hu⟩ | ⟨-, hu⟩
    · rw [hb] at hu
      cases hu
    · exact h.read u id hu

/-- A thread without an identity takes on one that was drawn for it. -/
theorem Fits.install (h : ids.Fits badge) {id : ThreadId} (hb : (badge t).token = some id)
    (hown : ids.own.get t = .nobody) (htoken : (badge' t).token = none)
    (hme : (badge' t).me = none ∨ (badge' t).me = some id)
    (hothers : ∀ u, u ≠ t → badge' u = badge u) : (ids.install t id).Fits badge' := by
  -- whoever has an identity in its hands is another thread, and had it before
  have hold {u : Tid} {id' : ThreadId} (hu : (badge' u).token = some id') :
      u ≠ t ∧ (badge u).token = some id' := by
    rcases hands_cases Badge.token hothers hu with ⟨rfl, hu⟩ | hu
    · rw [htoken] at hu
      cases hu
    · exact hu
  have hown' (u : Tid) :
      (ids.install t id).own.get u = if u = t then id else ids.own.get u := Table.get_set ..
  constructor
  case bound =>
    intro u
    rw [hown']
    split
    · exact (h.token t id hb).2
    · exact h.bound u
  case token =>
    intro u id' hu
    exact h.token u id' (hold hu).2
  case single =>
    intro u v id' hu hv
    exact h.single u v id' (hold hu).2 (hold hv).2
  case distinct =>
    intro u v heq hne
    rw [hown', hown'] at heq
    rw [hown'] at hne
    split at heq <;> split at heq
    · exact (‹u = t›).trans (‹v = t›).symm
    -- the new identity was nobody's
    · exact absurd heq.symm (h.untaken t id hb v)
    · exact absurd heq (h.untaken t id hb u)
    · exact h.distinct u v heq (by simpa [‹¬ u = t›] using hne)
  case untaken =>
    intro u id' hu v
    rw [hown']
    split
    · rintro rfl
      exact (hold hu).1 (h.single u t id (hold hu).2 hb)
    · exact h.untaken u id' (hold hu).2 v
  case read =>
    intro u id' hu
    rw [hown']
    rcases hands_cases Badge.me hothers hu with ⟨rfl, hu⟩ | ⟨hut, hu⟩
    · rcases hme with hme | hme <;> rw [hme] at hu <;> cases hu
      exact ⟨if_pos rfl, (h.token u id hb).1⟩
    · rw [if_neg hut]
      exact h.read u id' hu

/-- A thread hands over an identity to the thread it was drawn for. -/
theorem Fits.give (h : ids.Fits badge) {u : Tid} {id : ThreadId}
    (hb : (badge t).token = some id) (ht : badge' t = .blank) (hu : badge' u = ⟨some id, none⟩)
    (hothers : ∀ v, v ≠ t → v ≠ u → badge' v = badge v) : ids.Fits badge' := by
  -- whoever has an identity in its hands now, a thread had it before, and another one another
  have hold {v : Tid} {id' : ThreadId} (hv : (badge' v).token = some id') :
      v ≠ t ∧ (badge (if v = u then t else v)).token = some id' := by
    have hvt : v ≠ t := by
      rintro rfl
      rw [ht] at hv
      cases hv
    refine ⟨hvt, ?_⟩
    split
    · subst v
      rw [hu] at hv
      exact hv ▸ hb
    · rwa [← hothers v hvt ‹_›]
  constructor
  case bound => exact h.bound
  case distinct => exact h.distinct
  case token =>
    intro v id' hv
    exact h.token _ id' (hold hv).2
  case untaken =>
    intro v id' hv
    exact h.untaken _ id' (hold hv).2
  case single =>
    intro v w id' hv hw
    have heq := h.single _ _ id' (hold hv).2 (hold hw).2
    split at heq <;> split at heq
    · exact (‹v = u›).trans (‹w = u›).symm
    · exact absurd heq.symm (hold hw).1
    · exact absurd heq (hold hv).1
    · exact heq
  case read =>
    intro v id' hv
    by_cases hvt : v = t
    · rw [hvt, ht] at hv
      cases hv
    · by_cases hvu : v = u
      · rw [hvu, hu] at hv
        cases hv
      · exact h.read v id' (hothers v hvt hvu ▸ hv)

/-- Whatever a step does to identities, they still fit. -/
theorem Fits.pass (h : ids.Fits badge) (hpass : Passes t ids (badge t) ids' (badge' t))
    (hothers : ∀ u, u ≠ t → badge' u = badge u) : ids'.Fits badge' := by
  generalize hb' : badge' t = b' at hpass
  -- what is in the thread's hands was read before, or not at all
  have hread {me' : Option ThreadId} (hme : me' = none ∨ me' = (badge t).me) (id : ThreadId)
      (hid : me' = some id) : ids.own.get t = id ∧ id ≠ .nobody := by
    rcases hme with rfl | rfl
    · cases hid
    · exact h.read t id hid
  cases hpass with
  | keep => exact h.keep (.inr (by rw [hb'])) (hread (.inr (by rw [hb']))) hothers
  | draw => exact h.draw hb' hothers
  | install hb hown => exact h.install hb hown (by rw [hb']; rfl) (.inl (by rw [hb']; rfl)) hothers
  | @reads _ me' hreads =>
    cases hreads with
    | keep hme => exact h.keep (.inl (by rw [hb'])) (hread (by rwa [hb'])) hothers
    | current hme =>
      rcases current_cases ids t with ⟨hown, heq⟩ | ⟨hown, heq⟩ <;> rw [heq] at hme ⊢
      · refine h.keep (.inl (by rw [hb'])) ?_ hothers
        intro id hid
        rw [hb'] at hid
        rcases hme with rfl | rfl <;> cases hid
        exact ⟨rfl, hown⟩
      · -- the next identity is drawn and installed at once
        have hdraw : ids.draw.1.Fits fun u => if u = t then ⟨some ids.draw.2, none⟩ else badge u :=
          h.draw (t := t) (if_pos rfl) (fun u hu => if_neg hu)
        refine hdraw.install (t := t) (by simp) hown (by rw [hb']) (by rwa [hb']) ?_
        intro u hu
        rw [hothers u hu, if_neg hu]

/-- A thread that has an identity keeps it. -/
theorem Passes.own {b b' : Badge} (h : Passes t ids b ids' b') {u : Tid}
    (hu : ids.own.get u ≠ .nobody) : ids'.own.get u = ids.own.get u := by
  have hset {id : ThreadId} (hown : ids.own.get t = .nobody) :
      (ids.own.set t id).get u = ids.own.get u := by
    apply Table.get_set_of_ne
    rintro rfl
    exact hu hown
  cases h with
  | keep => rfl
  | draw => rfl
  | install hb hown => exact hset hown
  | reads hreads =>
    cases hreads with
    | keep => rfl
    | current =>
      rcases current_cases ids t with ⟨-, heq⟩ | ⟨hown, heq⟩ <;> rw [heq]
      exact hset hown

/-- The others have the identities they had. -/
theorem Passes.others {b b' : Badge} (h : Passes t ids b ids' b') {u : Tid} (hu : u ≠ t) :
    ids'.own.get u = ids.own.get u := by
  cases h with
  | keep | draw => rfl
  | install => exact Table.get_set_of_ne _ _ hu
  | reads hreads =>
    cases hreads with
    | keep => rfl
    | current =>
      rcases current_cases ids t with ⟨-, heq⟩ | ⟨-, heq⟩ <;> rw [heq]
      exact Table.get_set_of_ne _ _ hu

/-- At most one identity is drawn. -/
theorem Passes.last {b b' : Badge} (h : Passes t ids b ids' b') :
    ids'.last = ids.last ∨ ids'.last = ids.last + 1 := by
  cases h with
  | keep | install => exact .inl rfl
  | draw => exact .inr rfl
  | reads hreads =>
    cases hreads with
    | keep => exact .inl rfl
    | current =>
      rcases current_cases ids t with ⟨-, heq⟩ | ⟨-, heq⟩ <;> rw [heq]
      · exact .inl rfl
      · exact .inr rfl

end Identities

/-! ## Steps of calls

That the steps of calls do nothing else to identities is proved part by part, in the order of the
code: the parts that lock and wait only read (`step_reads`), a start draws, a new thread installs
(`Call.step_passes`). -/

variable {φ ψ ρ τ : Type} {t : Tid} {s : Store}

/-- A step whose phases carry the identity that `read` says does nothing but read it. -/
def Progress.Reads (t : Tid) (s : Store) (me : Option ThreadId) (read : φ → Option ThreadId) :
    Progress φ ρ → Prop :=
  Meets (fun s' phase => s.ids.Reads t me s'.ids (read phase))
    (fun s' _ => s.ids.Reads t me s'.ids none) (fun s' => s.ids.Reads t me s'.ids none)

/-- A whole reads the identity that its part reads. -/
theorem Progress.Reads.within {me : Option ThreadId} {read : φ → Option ThreadId}
    {read' : ψ → Option ThreadId} {p : Progress φ ρ} (h : p.Reads t s me read) {wrap : φ → ψ}
    {finish : Store → ρ → Progress ψ τ} (hwrap : ∀ phase, read' (wrap phase) = read phase)
    (hfinish : ∀ s' reply, s.ids.Reads t me s'.ids none → (finish s' reply).Reads t s me read') :
    (p.within wrap finish).Reads t s me read' :=
  Meets.within h (fun _ phase hs => (hwrap phase).symm ▸ hs) hfinish (fun _ hs => hs)

theorem Progress.Reads.whileUnwinding {me : Option ThreadId} {read : φ → Option ThreadId}
    {p : Progress φ ρ} (h : p.Reads t s me read) (pending : Option Panic) :
    (p.whileUnwinding pending).Reads t s me read :=
  Meets.whileUnwinding h pending

theorem Progress.Reads.passOn {me : Option ThreadId} {read : φ → Option ThreadId} {s' : Store}
    {reply : ρ} (h : s.ids.Reads t me s'.ids none) (pending : Option Panic) :
    (Progress.passOn s' reply pending).Reads t s me read :=
  Meets.passOn h h pending

/-- Locking asks for the identity once, at its entry. -/
theorem LockPhase.step_reads {l : LockRef} (p : LockPhase) :
    (p.step t l s).Reads t s p.me? me? := by
  cases p <;> simp only [step, Store.violate, Store.withLock] <;> (repeat' split) <;> first
    | exact trivial
    | exact .current (.inr rfl)
    | exact .keep (.inr rfl)
    | exact .keep (.inl rfl)

/-- So does unlocking. -/
theorem UnlockPhase.step_reads {l : LockRef} (p : UnlockPhase) :
    (p.step t l s).Reads t s p.me? me? := by
  cases p <;> simp only [step, Store.violate, Store.withLock] <;> (repeat' split) <;> first
    | exact trivial
    | exact .current (.inr rfl)
    | exact .keep (.inr rfl)
    | exact .keep (.inl rfl)

/-- A native wait keeps the identity that it was given until it returns. -/
theorem NativeWaitPhase.step_reads {c : CondRef} {l : LockRef} {timeout : Option Duration}
    (p : NativeWaitPhase) : (p.step t c l timeout s).Reads t s p.me? me? := by
  cases p <;> simp only [step, Store.violate, Store.withNative, Store.withLock] <;>
    (repeat' split) <;> first
      | exact trivial
      | exact .current (.inr rfl)
      | exact .keep (.inr rfl)
      | exact .keep (.inl rfl)

/-- A portable wait unlocks and locks the caller's mutex, each of which asks for itself. -/
theorem FallbackWaitPhase.step_reads {c : CondRef} {l : LockRef} {timeout : Option Duration}
    (p : FallbackWaitPhase) : (p.step t c l timeout s).Reads t s p.me? me? := by
  cases p with
  | unlocking p => exact p.step_reads.within (fun _ => rfl) fun _ _ hs => hs
  | locking p wokenBy => exact p.step_reads.within (fun _ => rfl) fun _ _ hs => hs
  | _ =>
    simp only [step, Store.violate, Store.withFallback, afterDeparture]
    (repeat' split) <;> first | exact trivial | exact .keep (.inl rfl)

/-- A wait hands the identity it has checked to its backend. -/
theorem WaitPhase.step_reads {c : CondRef} {l : LockRef} {timeout : Option Duration}
    (p : WaitPhase) : (p.step t c l timeout s).Reads t s p.me? me? := by
  cases p with
  | native p => exact p.step_reads.within (fun _ => rfl) fun _ _ hs => hs
  | fallback p => exact p.step_reads.within (fun _ => rfl) fun _ _ hs => hs
  | _ =>
    simp only [step, Store.violate, Store.withLock]
    (repeat' split) <;> first
      | exact trivial
      | exact .current (.inr rfl)
      | exact .keep (.inl rfl)

/-- A scope reads what its locking and its unlocking read, and nothing in between. -/
theorem ScopePhase.step_reads {l : LockRef} (p : ScopePhase) :
    (p.step t l s).Reads t s p.me? me? := by
  cases p with
  | locking p => exact p.step_reads.within (fun _ => rfl) fun _ _ hs => hs
  | body => exact trivial
  | unlocking p pending =>
    exact (p.step_reads.whileUnwinding pending).within (fun _ => rfl) fun _ _ hs =>
      .passOn hs pending

/-- So does a scope that is unlocked for a while. -/
theorem UnlockedPhase.step_reads {l : LockRef} (p : UnlockedPhase) :
    (p.step t l s).Reads t s p.me? me? := by
  cases p with
  | unlocking p => exact p.step_reads.within (fun _ => rfl) fun _ _ hs => hs
  | body => exact trivial
  | relocking p pending =>
    exact (p.step_reads.whileUnwinding pending).within (fun _ => rfl) fun _ _ hs =>
      .passOn hs pending

/-- A loop reads what its waits read. -/
theorem WaitWhilePhase.step_reads {c : CondRef} {l : LockRef} {timeout : Option Duration}
    (p : WaitWhilePhase) : (p.step t c l timeout s).Reads t s p.me? me? := by
  cases p with
  | waiting start rest p => exact p.step_reads.within (fun _ => rfl) fun _ _ hs => hs
  | _ =>
    simp only [step]
    (repeat' split) <;> first | exact trivial | exact .keep (.inl rfl)

/-- A run-once call reads what the locking of its gate's mutex reads. -/
theorem OncePhase.step_reads {o : OnceRef} (p : OncePhase) :
    (p.step t o s).Reads t s p.me? me? := by
  cases p with
  | locking p => exact p.step_reads.within (fun _ => rfl) fun _ _ hs => hs
  | callback => exact trivial
  | unlocking p finish =>
    exact (p.step_reads.whileUnwinding finish.panic?).within (fun _ => rfl) fun _ _ hs =>
      .passOn hs finish.panic?
  | _ =>
    simp only [step]
    (repeat' split) <;> exact .keep (.inl rfl)

/-- What a step of a call does to the source of identities and to those in its hands. -/
def Progress.Passes (t : Tid) (s : Store) (b : Badge) : Progress Call Reply → Prop :=
  Meets (fun s' call => s.ids.Passes t b s'.ids call.badge)
    (fun s' _ => s.ids.Passes t b s'.ids .blank) (fun s' => s.ids.Passes t b s'.ids .blank)

/-- A step that only reads passes nothing else on. -/
theorem Progress.Reads.passes {me : Option ThreadId} {read : φ → Option ThreadId}
    {p : Progress φ ρ} (h : p.Reads t s me read) {call : φ → Call} {reply : ρ → Reply}
    (hcall : ∀ phase, (call phase).badge = ⟨none, read phase⟩) :
    (Call.lift call reply p).Passes t s ⟨none, me⟩ :=
  Meets.within h (fun s' phase hs => by rw [hcall]; exact .reads hs) (fun _ _ hs => .reads hs)
    (fun _ hs => .reads hs)

/-- A step that leaves the source of identities alone. -/
theorem Progress.Keeps.passes {p : Progress φ ρ} (h : p.Keeps (·.ids = s.ids)) {call : φ → Call}
    {reply : ρ → Reply} {b : Badge} (hcall : ∀ phase, (call phase).badge = .blank) :
    (Call.lift call reply p).Passes t s b :=
  have hkeep {s' : Store} (hs : s'.ids = s.ids) : s.ids.Passes t b s'.ids .blank :=
    hs ▸ .reads (.keep (.inl rfl))
  Meets.within h (fun s' phase hs => by rw [hcall]; exact hkeep hs) (fun _ _ hs => hkeep hs)
    (fun _ hs => hkeep hs)

/-- A start draws the identity of the thread it spawns, and has it in its hands until then. -/
theorem StartPhase.step_passes {r : ThreadRef} {choice : Choice} (p : StartPhase) :
    (Call.lift (.start r) .started (p.step t r choice s)).Passes t s (Call.start r p).badge := by
  cases p <;> simp only [step, Store.violate, Call.lift] <;> (repeat' split) <;> first
    | exact .draw
    | exact .reads (.keep (.inl rfl))

theorem Store.destroy_ids (s : Store) (object : Object) (unwinding : Bool) :
    (s.destroy object unwinding).1.ids = s.ids := by
  obtain ⟨log, locks, lockUsers, conds, h⟩ := s.destroy_fst object unwinding
  rw [h]

/-- Every step of a call reads, draws, installs, or leaves identities alone. -/
theorem Call.step_passes {choice : Choice} (call : Call) :
    (call.step t choice s).Passes t s call.badge := by
  -- most calls leave identities alone; some read their thread's own, one draws, one installs
  have hkeep {b : Badge} : s.ids.Passes t b s.ids .blank := .reads (.keep (.inl rfl))
  cases call with
  | lock l p => exact p.step_reads.passes fun _ => rfl
  | unlock l p => exact p.step_reads.passes fun _ => rfl
  | scope l p => exact p.step_reads.passes fun _ => rfl
  | unlocked l p => exact p.step_reads.passes fun _ => rfl
  | wait c l timeout p => exact p.step_reads.passes fun _ => rfl
  | waitWhile c l timeout p => exact p.step_reads.passes fun _ => rfl
  | once o p => exact p.step_reads.passes fun _ => rfl
  | start r p => exact p.step_passes
  | install id =>
    simp only [step, single, installStep, Store.violate]
    split
    · exact .install rfl ‹_›
    · exact hkeep
  | currentId => exact .reads (.current (.inl rfl))
  | destroy object unwinding =>
    have hpasses : s.ids.Passes t .blank (s.destroy object unwinding).1.ids .blank := by
      rw [s.destroy_ids object unwinding]
      exact hkeep
    exact (ends_destroy t choice s object unwinding).meets (fun _ => hpasses) hpasses
  | wakeup c event p =>
    refine Progress.Keeps.passes ?_ fun _ => rfl
    cases p <;>
      simp only [WakeupPhase.step, Store.violate, Store.withNative, Store.withFallback] <;>
      (repeat' split) <;> first | exact trivial | rfl
  | acquire r p =>
    refine Progress.Keeps.passes ?_ fun _ => rfl
    cases p <;> simp only [AcquirePhase.step, AcquirePhase.attemptStep] <;>
      (repeat' split) <;> first | exact trivial | rfl
  | release r p =>
    refine Progress.Keeps.passes ?_ fun _ => rfl
    cases p <;> simp only [ReleasePhase.step, Store.violate] <;>
      (repeat' split) <;> first | exact trivial | rfl
  | setEvent e event p => refine Progress.Keeps.passes (by cases p <;> rfl) fun _ => rfl
  | listen e timeout p =>
    refine Progress.Keeps.passes ?_ fun _ => rfl
    cases p <;> simp only [ListenPhase.step, ListenPhase.look] <;>
      (repeat' split) <;> first | exact trivial | rfl
  | join r p =>
    refine Progress.Keeps.passes ?_ fun _ => rfl
    cases p <;> simp only [JoinPhase.step, JoinPhase.finish, takeRunning, Store.violate] <;>
      (repeat' split) <;> first | exact trivial | rfl
  | configure r setting =>
    obtain ⟨log, hstore⟩ := s.exists_configureThread_eq r setting
    simp only [step, single, configureStep, hstore]
    exact hkeep
  | detach r =>
    simp only [step, single, detachStep, takeRunning, Store.violate]
    split <;> exact hkeep
  | initMutex l =>
    simp only [step, single, initMutexStep, Store.violate]
    split <;> exact hkeep
  | initCond c backend =>
    simp only [step, single, initCondStep, Store.violate]
    split <;> exact hkeep
  | tryAcquire r =>
    simp only [step, single, tryAcquireStep]
    split <;> exact hkeep
  | resetEvent e event => exact hkeep
  | setName name =>
    obtain ⟨log, hreport⟩ := s.exists_reportName_eq name
    simp only [step, Store.nameThread, hreport]
    exact hkeep

theorem Call.step_own {choice : Choice} (call : Call) :
    (call.step t choice s).Keeps fun s' => ∀ u, u ≠ t → s'.ids.own.get u = s.ids.own.get u :=
  Progress.Meets.mono call.step_passes (fun _ _ h _ => h.others) (fun _ _ h _ => h.others)
    fun _ h _ => h.others

/-! ## Runs

Whose hands an identity is in is a view of the innermost calls, so the step lemma above carries the
invariant from move to move. The one case that the view does not cover is the spawned thread: what
its starter had in its hands is in its own now (`Fits.give`). -/

namespace Machine

/-- Identities are distinct, those in the hands of calls included, and what a call has read as its
thread's identity is that. -/
def Identified (m : Machine) : Prop := m.store.ids.Fits (m.see Call.badge .blank)

/-- At first nobody has an identity. -/
theorem identified_initial : initial.Identified where
  bound _ := Nat.le_refl _
  distinct _ _ _ hne := absurd rfl hne
  token _ _ ht := nomatch ht
  untaken _ _ ht := nomatch ht
  single _ _ _ ht := nomatch ht
  read _ _ ht := nomatch ht

variable {m m' : Machine} {move : Move}

/-- A move passes identities for one thread at most, and hands one to a thread that it spawns. -/
theorem Change.passes (hchange : m.Change move m') (hsound : m.Sound) :
    ∃ t, m.store.ids.Passes t (m.see Call.badge .blank t) m'.store.ids
        (m'.see Call.badge .blank t) ∧
      ∀ u, u ≠ t →
        m'.see Call.badge .blank u = m.see Call.badge .blank u ∨ m.Adopts m' t u := by
  have hview : m.View (fun _ => Call.badge) .blank :=
    ⟨fun _ _ hcalm => hcalm.badge, fun _ _ _ _ => rfl⟩
  have hclient (t : Tid) (s' : Store) (b : Badge) (hgrows : m.store.Grows s') :
      m.store.ids.Passes t b s'.ids b := by
    rw [hgrows.ids]
    exact .keep
  exact Change.sight (Q := fun t s' b b' => m.store.ids.Passes t b s'.ids b') hview hsound hclient
    (fun t choice call _ _ _ => call.step_passes) hchange

/-- A thread that has an identity keeps it. -/
theorem Change.own (hchange : m.Change move m') (hsound : m.Sound) {u : Tid}
    (hu : m.store.ids.own.get u ≠ .nobody) :
    m'.store.ids.own.get u = m.store.ids.own.get u := by
  obtain ⟨t, hpass, -⟩ := hchange.passes hsound
  exact hpass.own hu

/-- Every change keeps identities apart. -/
theorem Identified.change (h : m.Identified) (hsound : m.Sound) (hchange : m.Change move m') :
    m'.Identified := by
  obtain ⟨t, hpass, hothers⟩ := hchange.passes hsound
  by_cases hadopts : ∃ u, u ≠ t ∧ m.Adopts m' t u
  · -- the identity goes from the hands of the creator into those of the new thread
    obtain ⟨u, hut, r, id, ht, ht', hu, hu', hids⟩ := hadopts
    have hb : (m.see Call.badge .blank t).token = some id := by
      rw [see_of_call? ht]
      rfl
    rw [Identified, hids]
    refine h.give hb (see_of_call? ht') (see_of_call? hu') ?_
    intro v hvt hvu
    rcases hothers v hvt with hsame | ⟨r', id', -, hv', -⟩
    · exact hsame
    · rw [ht'] at hv'
      cases hv'
      exact absurd rfl hvu
  · refine h.pass hpass ?_
    intro u hut
    rcases hothers u hut with hsame | hadopt
    · exact hsame
    · exact absurd ⟨u, hut, hadopt⟩ hadopts

end Machine

theorem Run.state_identified (r : Run) (i : Nat) : (r.state i).Identified := by
  induction i with
  | zero => exact Machine.identified_initial
  | succ i ih => exact ih.change (r.state_sound i) (r.state_change i)

end Interlock
