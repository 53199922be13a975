import Interlock.Proofs.Identity
import Interlock.Proofs.Thread.Objects

/-!
# Which thread an object names

A running thread object shows the identity of the thread that it has started. The start draws the
identity before the thread exists, so it is on its way for a while: in the hands of the start, then
in those of the new thread, which has yet to install it, and of the start, which has yet to record
it in the object.

  * `Machine.Bears`: a thread has an identity, or is about to install it before anything else;
  * `Machine.claim`: the identities that running objects show, and those about to be recorded;
  * `Machine.Named`: every claimed identity is borne by a thread and claimed once, and a thread that
    is to install an identity has none (`Run.state_named`);
  * `Run.Draws`: where identities come from. They are drawn one after the other, and what a running
    object shows was drawn by the start that made it run (`Run.exists_madeRun`).
-/

namespace Interlock

namespace Machine

variable {m m' : Machine} {move : Move} {t u child : Tid} {choice : Choice} {id : ThreadId}
  {o : ThreadRef}

/-! ## What moves do to identities

An identity stands in a place of its thread's own, which only that thread writes, and new ones are
drawn from one counter. These lemmas say what a move of any kind can change of either. -/

/-- A thread that takes no step keeps the identity it has, or goes on having none. -/
theorem Change.own_others (hchange : m.Change move m')
    (hmove : ∀ choice, move ≠ .advance u choice) :
    m'.store.ids.own.get u = m.store.ids.own.get u := by
  refine hchange.keeps (P := fun s' => s'.ids.own.get u = m.store.ids.own.get u)
    (fun s' hgrows => by rw [hgrows.ids]) fun t choice call hadvance _ _ => ?_
  have hu : u ≠ t := by
    rintro rfl
    exact hmove choice hadvance
  exact call.step_own.imp fun s' hothers => hothers u hu

/-- The numbers of threads are not taken back. -/
theorem Change.nextThread_le (hchange : m.Change move m') :
    m.store.nextThread ≤ m'.store.nextThread :=
  hchange.keeps (P := fun s' => m.store.nextThread ≤ s'.nextThread)
    (fun _ hgrows => hgrows.nextThread) fun _ _ call _ _ _ =>
      Progress.Keeps.imp call.step_frame fun _ hframe => hframe.nextThread

theorem Change.ids_last (hchange : m.Change move m') (hsound : m.Sound) :
    m'.store.ids.last = m.store.ids.last ∨ m'.store.ids.last = m.store.ids.last + 1 := by
  obtain ⟨t, hpasses, -⟩ := hchange.passes hsound
  exact hpasses.last

/-- What a step goes on with installs no identity. -/
theorem Call.step_ne_install {call : Call} {s s' : Store} :
    call.step t choice s ≠ .next s' (.install id) := by
  intro hstep
  have hkind := Call.origin_of_step hstep
  cases call <;> cases hkind
  simp only [Call.step, Call.single, installStep, Store.violate] at hstep
  split at hstep <;> cases hstep

/-- A thread that is to install an identity was to do so before, or has just been spawned. -/
theorem Change.install_cases (hchange : m.Change move m') (hsound : m.Sound)
    (h : m'.call? u = some (.install id)) :
    m'.store.ids.own.get u = m.store.ids.own.get u ∧
      (m.call? u = some (.install id) ∨ m.store.nextThread ≤ u) := by
  have hothers := hchange.own_others (u := u)
  cases hchange with
  | client hgrows => exact ⟨by rw [hgrows.ids], .inl h⟩
  | @begin t call hborn hfresh =>
    refine ⟨rfl, .inl ?_⟩
    rw [call?, Table.get_set] at h
    split at h
    · cases h
      cases hfresh
    · exact h
  | @resume t call outer e hget hbody =>
    refine ⟨rfl, .inl ?_⟩
    rw [call?, Table.get_set] at h
    split at h
    · have hresume : call.resume e = .install id := Option.some.inj h
      cases call <;> cases hresume
      cases hbody
    · exact h
  | @next t choice call call' outer s' hget hstep =>
    have hu : u ≠ t := by
      rintro rfl
      have hcall : call' = .install id := by
        have hafter := (hsound.call?_of_next hget hstep).1
        rw [advance, hget] at hafter
        simp only [hstep] at hafter
        exact Option.some.inj (hafter.symm.trans h)
      exact Call.step_ne_install (hcall ▸ hstep)
    refine ⟨hothers fun choice heq => hu (by cases heq; rfl), ?_⟩
    -- the calls of other threads stay, but for the first one of a thread that is born
    cases hchild : call'.child? with
    | none =>
      rw [hchild, adopt, call?, Table.get_set_of_ne _ _ hu] at h
      exact .inl h
    | some pair =>
      obtain ⟨child, id'⟩ := pair
      obtain ⟨rfl, -⟩ := Call.child_of_step hstep hchild
      rw [hchild, adopt, call?, Table.get_set] at h
      split at h
      · exact .inr (Nat.le_of_eq (Eq.symm ‹_›))
      · rw [Table.get_set_of_ne _ _ hu] at h
        exact .inl h
  | @last t choice call outer s' hget hunused hends =>
    have hu : u ≠ t := by
      rintro rfl
      rw [call?, Table.get_set_self] at h
      have hbody := hsound.waiting u call outer hget _ (List.mem_of_head? h)
      cases hbody
    refine ⟨hothers fun choice heq => hu (by cases heq; rfl), .inl ?_⟩
    rw [call?, Table.get_set_of_ne _ _ hu] at h
    exact h

/-! ## Who has an identity

Three places speak of the identity of one started thread: the thread itself, the start that is about
to record it, and the object that shows it. `Named` ties them together. A start that has drawn an
identity but spawned nothing claims none yet, so no two ever claim the same one. -/

/-- Thread `child` has identity `id`, or is about to install it. -/
def Bears (m : Machine) (child : Tid) (id : ThreadId) : Prop :=
  id ≠ .nobody ∧ (m.call? child = some (.install id) ∨ m.store.ids.own.get child = id)

/-- A thread without an identity installs the one it was given. -/
theorem install_step (hcall : m.call? t = some (.install id))
    (hown : m.store.ids.own.get t = .nobody) (choice : Choice) :
    (m.advance t choice).2 = .replied .nothing ∧
      (m.advance t choice).1.store.ids.own.get t = id := by
  obtain ⟨outer, hget⟩ := List.head?_eq_some_iff.1 hcall
  have hadvance : m.advance t choice = (⟨{ m.store with ids := m.store.ids.install t id },
      m.calls.set t outer⟩, .replied .nothing) := by
    simp only [advance, hget, Call.step, Call.single, installStep, hown, if_true, Progress.within]
  rw [hadvance]
  exact ⟨rfl, Table.get_set_self ..⟩

/-- Who has an identity, or is about to install it, goes on to. -/
theorem Bears.apply (h : m.Bears child id) (hallows : m.allows move = true) (hsound : m.Sound)
    (hfresh : ∀ id', m.call? child = some (.install id') → m.store.ids.own.get child = .nobody) :
    (m.apply move).Bears child id := by
  have hchange := change_apply hallows
  obtain ⟨hne, hcall | hown⟩ := h
  · refine ⟨hne, ?_⟩
    by_cases hmove : ∃ choice, move = .advance child choice
    · obtain ⟨choice, rfl⟩ := hmove
      exact .inr (install_step hcall (hfresh id hcall) choice).2
    · obtain ⟨outer, hget⟩ := List.head?_eq_some_iff.1 hcall
      exact .inl (call?_of_get (hchange.calls_kept hsound hget rfl fun choice heq =>
        hmove ⟨choice, heq⟩))
  · exact ⟨hne, .inr ((hchange.own hsound (hown ▸ hne)).trans hown)⟩

/-- The identity that is claimed by a start that is about to record it, or by an object that shows
it. -/
def claim (m : Machine) : Tid ⊕ ThreadRef → Option ThreadId
  | .inl t =>
    match m.call? t with
    | some (.start _ (.record id _)) => some id
    | _ => none
  | .inr o => if (m.store.threads.get o).running then some (m.store.threads.get o).id else none

/-- What is known of threads and of the objects that name them. -/
structure Named (m : Machine) : Prop where
  unborn : ∀ t, m.store.nextThread ≤ t → m.store.ids.own.get t = .nobody
  fresh : ∀ t id, m.call? t = some (.install id) → m.store.ids.own.get t = .nobody
  idle : ∀ o, (m.store.threads.get o).running = false → (m.store.threads.get o).id = .nobody
  /-- A start records the thread it has spawned. -/
  record : ∀ t o id child, m.call? t = some (.start o (.record id child)) → m.Bears child id
  object : ∀ o, (m.store.threads.get o).running = true →
    ∃ child, m.Bears child (m.store.threads.get o).id ∧
      ((m.store.threads.get o).handle = none ∨ (m.store.threads.get o).handle = some child)
  single : ∀ a b id, m.claim a = some id → m.claim b = some id → a = b

/-- A start claims the identity of the thread that it is about to record. -/
theorem claim_start : m.claim (.inl t) = some id ↔
    ∃ o child, m.call? t = some (.start o (.record id child)) := by
  simp only [claim]
  split
  · rename_i o id' child hcall
    simp [hcall]
  · rename_i hnot
    constructor
    · simp
    · rintro ⟨o, child, hcall⟩
      exact absurd hcall (hnot o id child)

theorem claim_object : m.claim (.inr o) = some id ↔
    (m.store.threads.get o).running = true ∧ (m.store.threads.get o).id = id := by
  simp [claim]

theorem named_initial : initial.Named where
  unborn _ _ := rfl
  fresh _ _ hcall := by cases hcall
  idle _ _ := rfl
  record _ _ _ _ hcall := by cases hcall
  object _ hrunning := by cases hrunning
  single a b id ha hb := by
    cases a with
    | inl t =>
      obtain ⟨o, child, hcall⟩ := claim_start.1 ha
      cases hcall
    | inr o => cases (claim_object.1 ha).1

/-- How an identity comes to be claimed in a move. -/
inductive ClaimEvent (m : Machine) (move : Move) (a : Tid ⊕ ThreadRef) (id : ThreadId) : Prop
  | kept (h : m.claim a = some id)
  | spawned {t : Tid} {choice : Choice} {o : ThreadRef} (hmove : move = .advance t choice)
    (ha : a = .inl t) (hcall : m.call? t = some (.start o (.spawn id)))
  | recorded {t : Tid} {choice : Choice} {o : ThreadRef} {child : Tid}
    (hmove : move = .advance t choice) (ha : a = .inr o)
    (hcall : m.call? t = some (.start o (.record id child)))

/-- A start that is about to record a thread was so before, or has just spawned it. -/
theorem record_cases (hallows : m.allows move = true) (hsound : m.Sound)
    (h : (m.apply move).call? t = some (.start o (.record id child))) :
    m.call? t = some (.start o (.record id child)) ∨
      m.call? t = some (.start o (.spawn id)) ∧ (∃ choice, move = .advance t choice) ∧
        child = m.store.nextThread ∧ (m.apply move).call? child = some (.install id) := by
  obtain hcall | ⟨-, hfresh⟩ | ⟨choice, call, rfl, hcall, hstep⟩ :=
    thread_arises hallows hsound h rfl
  · exact .inl hcall
  · cases hfresh
  · obtain ⟨rfl, -, -, r, rfl, hcall'⟩ := Call.child_of_step hstep rfl
    cases hcall'
    refine .inr ⟨hcall, ⟨choice, rfl⟩, rfl, ?_⟩
    obtain ⟨outer, hget⟩ := List.head?_eq_some_iff.1 hcall
    generalize (m.apply (.advance t choice)).store = s' at hstep
    simp only [apply, advance, hget, hstep, Call.child?, adopt, call?, Table.get_set_self,
      List.head?_cons]

/-- What is claimed after a move was claimed before, or is handed on by a step of a start. -/
theorem claimEvent (hallows : m.allows move = true) (hsound : m.Sound) {a : Tid ⊕ ThreadRef}
    (h : (m.apply move).claim a = some id) : m.ClaimEvent move a id := by
  cases a with
  | inl t =>
    obtain ⟨o, child, hcall⟩ := claim_start.1 h
    rcases record_cases hallows hsound hcall with hbefore | ⟨hbefore, ⟨choice, hmove⟩, -⟩
    · exact .kept (claim_start.2 ⟨o, child, hbefore⟩)
    · exact .spawned hmove rfl hbefore
  | inr o =>
    obtain ⟨hrunning, hid⟩ := claim_object.1 h
    cases m.threadEvent move o with
    | kept hsame => exact .kept (claim_object.2 (hsame ▸ ⟨hrunning, hid⟩))
    | new _ hnew =>
      rw [hnew] at hrunning
      cases hrunning
    | touched hmove hcall htouches =>
      generalize (m.apply move).store.threads.get o = th' at htouches hrunning hid
      cases htouches with
      | configured =>
        -- a setter keeps the state and the identity
        rw [Thread.configured_running] at hrunning
        rw [Thread.configured_id] at hid
        exact .kept (claim_object.2 ⟨hrunning, hid⟩)
      | started =>
        cases hid
        exact .recorded hmove rfl hcall
      | taken | refused => exact .kept (claim_object.2 ⟨hrunning, hid⟩)
      | joined | detached => cases hrunning

/-- An identity in the hands of a start that has not spawned its thread is not claimed yet. -/
theorem Named.claim_ne_token (h : m.Named) (hids : m.Identified) {a : Tid ⊕ ThreadRef}
    (ha : m.claim a = some id) (hcall : m.call? t = some (.start o (.spawn id))) : False := by
  have htoken : (m.see Call.badge .blank t).token = some id := by
    rw [see_of_call? hcall]
    rfl
  have hbears : ∃ child, m.Bears child id := by
    cases a with
    | inl u =>
      obtain ⟨o', child, hrecord⟩ := claim_start.1 ha
      exact ⟨child, h.record u o' id child hrecord⟩
    | inr o' =>
      obtain ⟨hrunning, rfl⟩ := claim_object.1 ha
      obtain ⟨child, hbears, -⟩ := h.object o' hrunning
      exact ⟨child, hbears⟩
  obtain ⟨child, -, hinstall | hown⟩ := hbears
  · have htoken' : (m.see Call.badge .blank child).token = some id := by
      rw [see_of_call? hinstall]
      rfl
    obtain rfl := hids.single t child id htoken htoken'
    cases hcall.symm.trans hinstall
  · exact hids.untaken t id htoken child hown

/-- A start that has recorded its thread claims nothing any more. -/
theorem claim_of_recorded (hsound : m.Sound)
    (hcall : m.call? t = some (.start o (.record id child))) (choice : Choice) :
    (m.apply (.advance t choice)).claim (.inl t) = none := by
  obtain ⟨outer, hget⟩ := List.head?_eq_some_iff.1 hcall
  rw [Option.eq_none_iff_forall_ne_some]
  intro id' hclaim
  obtain ⟨o', child', hafter⟩ := claim_start.1 hclaim
  have hmoves : (m.advance t choice).2 ≠ .blocked := by
    simp [advance, hget, Call.step, Call.lift, StartPhase.step, Progress.within]
  obtain ⟨call, hcall', hstep⟩ := hsound.next_of_advance hafter rfl hmoves
  cases hcall.symm.trans hcall'
  simp [Call.step, Call.lift, StartPhase.step, Progress.within] at hstep

/-- After a move no two claim the same identity. -/
theorem Named.single_apply (h : m.Named) (hallows : m.allows move = true) (hsound : m.Sound)
    (hids : m.Identified) {a b : Tid ⊕ ThreadRef} {id : ThreadId}
    (ha : (m.apply move).claim a = some id) (hb : (m.apply move).claim b = some id) : a = b := by
  -- a claim of a start is new only with its thread; the claim of an object comes from a start,
  -- which gives its own up in the same move
  cases claimEvent hallows hsound ha with
  | kept hka =>
    cases claimEvent hallows hsound hb with
    | kept hkb => exact h.single a b id hka hkb
    | spawned _ _ hcall => exact (h.claim_ne_token hids hka hcall).elim
    | recorded hmove _ hcall =>
      subst hmove
      obtain rfl := h.single a _ id hka (claim_start.2 ⟨_, _, hcall⟩)
      cases (claim_of_recorded hsound hcall _).symm.trans ha
  | spawned hmove hat hcall =>
    cases claimEvent hallows hsound hb with
    | kept hkb => exact (h.claim_ne_token hids hkb hcall).elim
    | spawned hmove' hbt _ =>
      cases hmove.symm.trans hmove'
      exact hat.trans hbt.symm
    | recorded hmove' _ hcall' =>
      cases hmove.symm.trans hmove'
      cases hcall.symm.trans hcall'
  | recorded hmove hao hcall =>
    cases claimEvent hallows hsound hb with
    | kept hkb =>
      subst hmove
      obtain rfl := h.single b _ id hkb (claim_start.2 ⟨_, _, hcall⟩)
      cases (claim_of_recorded hsound hcall _).symm.trans hb
    | spawned hmove' _ hcall' =>
      cases hmove.symm.trans hmove'
      cases hcall.symm.trans hcall'
    | recorded hmove' hbo hcall' =>
      cases hmove.symm.trans hmove'
      cases hcall.symm.trans hcall'
      exact hao.trans hbo.symm

/-- A thread that does not exist yet takes no step, so it has no identity after the move either. -/
theorem Named.unborn_apply (h : m.Named) (hallows : m.allows move = true) (hsound : m.Sound)
    (ht : (m.apply move).store.nextThread ≤ t) : (m.apply move).store.ids.own.get t = .nobody := by
  have hchange := change_apply hallows
  have hborn := Nat.le_trans hchange.nextThread_le ht
  have hnone : m.calls.get t = [] := hsound.unborn t hborn
  by_cases hmove : ∃ choice, move = .advance t choice
  · obtain ⟨choice, rfl⟩ := hmove
    have hsame : m.apply (.advance t choice) = m := by simp only [Machine.apply, advance, hnone]
    rw [hsame]
    exact h.unborn t hborn
  · exact (hchange.own_others fun choice heq => hmove ⟨choice, heq⟩).trans (h.unborn t hborn)

/-- An object that is not running shows nobody. -/
theorem Named.idle_apply (h : m.Named)
    (hidle : ((m.apply move).store.threads.get o).running = false) :
    ((m.apply move).store.threads.get o).id = .nobody := by
  cases m.threadEvent move o with
  | kept hsame =>
    rw [hsame] at hidle ⊢
    exact h.idle o hidle
  | new _ hnew =>
    rw [hnew]
    rfl
  | touched _ _ htouches =>
    generalize (m.apply move).store.threads.get o = th' at htouches hidle ⊢
    cases htouches with
    | configured =>
      rw [Thread.configured_running] at hidle
      exact (Thread.configured_id ..).trans (h.idle o hidle)
    | started => cases hidle
    | taken | refused => exact h.idle o hidle
    | joined | detached => rfl

/-- A running object shows the identity of a thread, and has the handle of that thread or none. -/
theorem Named.object_apply (h : m.Named)
    (hkeeps : ∀ child id, m.Bears child id → (m.apply move).Bears child id)
    (hrunning : ((m.apply move).store.threads.get o).running = true) :
    ∃ child, (m.apply move).Bears child ((m.apply move).store.threads.get o).id ∧
      (((m.apply move).store.threads.get o).handle = none ∨
        ((m.apply move).store.threads.get o).handle = some child) := by
  cases m.threadEvent move o with
  | kept hsame =>
    rw [hsame] at hrunning ⊢
    obtain ⟨child, hbears, hhandle⟩ := h.object o hrunning
    exact ⟨child, hkeeps _ _ hbears, hhandle⟩
  | new _ hnew =>
    rw [hnew] at hrunning
    cases hrunning
  | touched _ hcall htouches =>
    generalize (m.apply move).store.threads.get o = th' at htouches hrunning ⊢
    cases htouches with
    | configured =>
      simp only [Thread.configured_running, Thread.configured_id, Thread.configured_handle]
        at hrunning ⊢
      obtain ⟨child, hbears, hhandle⟩ := h.object o hrunning
      exact ⟨child, hkeeps _ _ hbears, hhandle⟩
    | started => exact ⟨_, hkeeps _ _ (h.record _ o _ _ hcall), .inr rfl⟩
    | taken | refused =>
      obtain ⟨child, hbears, -⟩ := h.object o hrunning
      exact ⟨child, hkeeps _ _ hbears, .inl rfl⟩
    | joined | detached => cases hrunning

/-- A move leaves threads and the objects that name them as they should be. -/
theorem Named.apply (h : m.Named) (hallows : m.allows move = true) (hsound : m.Sound)
    (hids : m.Identified) : (m.apply move).Named := by
  have hkeeps (child : Tid) (id : ThreadId) (hbears : m.Bears child id) :
      (m.apply move).Bears child id :=
    hbears.apply hallows hsound fun id' => h.fresh child id'
  constructor
  case unborn => exact fun t => h.unborn_apply hallows hsound
  case fresh =>
    intro t id hcall
    obtain ⟨hown, hbefore | hnew⟩ := (change_apply hallows).install_cases hsound hcall
    · exact hown.trans (h.fresh t id hbefore)
    · exact hown.trans (h.unborn t hnew)
  case idle => exact fun o => h.idle_apply
  case record =>
    intro t o id child hcall
    rcases record_cases hallows hsound hcall with hbefore | ⟨hbefore, -, -, hinstall⟩
    · exact hkeeps _ _ (h.record t o id child hbefore)
    · have htoken := hids.token t id (by rw [see_of_call? hbefore]; rfl)
      exact ⟨htoken.1, .inl hinstall⟩
  case object => exact fun o => h.object_apply hkeeps
  case single => exact fun _ _ _ => h.single_apply hallows hsound hids

end Machine

/-- Whatever happens, running objects name threads, and no two of them the same. -/
theorem Run.state_named (r : Run) (i : Nat) : (r.state i).Named := by
  induction i with
  | zero => exact Machine.named_initial
  | succ i ih => exact ih.apply (r.state_allows i) (r.state_sound i) (r.state_identified i)

/-! ## Where identities come from

The history has more to say than one state: an identity that an object shows was drawn in a move, by
a start of that object, at a time when the object was not running. The start is followed from the
draw to the record, and the object from there on. -/

namespace Call

variable {call : Call} {s s' : Store} {t : Tid} {choice : Choice} {o : ThreadRef} {id : ThreadId}

/-- Only a start of an object that is not running draws an identity for a new thread. -/
theorem entry_of_spawn (h : call.step t choice s = .next s' (.start o (.spawn id))) :
    call = .start o .entry ∧ (s.threads.get o).running = false ∧
      s'.ids.last = s.ids.last + 1 ∧ id = ⟨s'.ids.last⟩ := by
  have hkind := origin_of_step h
  cases call <;> cases hkind
  rename_i p
  cases p <;> simp only [step, lift, StartPhase.step, Store.violate] at h
  case entry =>
    split at h <;> cases h
    exact ⟨rfl, by simpa using ‹¬ (s.threads.get o).running = true›, rfl, rfl⟩
  all_goals
    (repeat' split at h) <;> cases h

end Call

namespace Run

variable {r : Run} {i j k d : Nat} {t u : Tid} {o : ThreadRef} {id id' : ThreadId}

/-- Identity `id` is drawn in move `i`. -/
def Draws (r : Run) (i : Nat) (id : ThreadId) : Prop :=
  (r.state (i + 1)).store.ids.last = (r.state i).store.ids.last + 1 ∧
    id = ⟨(r.state (i + 1)).store.ids.last⟩

/-- Thread `t` drew identity `id` in move `d`, in a start of object `o` that it is still in before
move `i`. The object was not running then. -/
structure Drawing (r : Run) (o : ThreadRef) (id : ThreadId) (t : Tid) (d i : Nat) : Prop where
  draws : r.Draws d id
  idle : ((r.state d).store.threads.get o).running = false
  entry : (r.state d).call? t = some (.start o .entry)
  move : ∃ choice, r.move d = .advance t choice
  before : d < i
  since : ∀ j, d < j → j ≤ i → ∃ p, p ≠ .entry ∧ (r.state j).call? t = some (.start o p)

/-- Object `o` runs with identity `id` before move `i`, and has done so since move `k`, in which the
start that drew the identity in move `d` made it run. -/
structure MadeRun (r : Run) (o : ThreadRef) (id : ThreadId) (d k i : Nat) : Prop where
  drawing : ∃ t, r.Drawing o id t d k ∧ (∃ choice, r.move k = .advance t choice) ∧
    ∃ child, (r.state k).call? t = some (.start o (.record id child))
  before : k < i
  since : ∀ j, k < j → j ≤ i → ((r.state j).store.threads.get o).running = true ∧
    ((r.state j).store.threads.get o).id = id

theorem ids_last_mono (r : Run) (h : i ≤ k) :
    (r.state i).store.ids.last ≤ (r.state k).store.ids.last := by
  induction h with
  | refl => exact Nat.le_refl _
  | @step k _ ih =>
    refine Nat.le_trans ih ?_
    rcases (r.state_change k).ids_last (r.state_sound k) with hlast | hlast
    · exact Nat.le_of_eq hlast.symm
    · exact Nat.le_trans (Nat.le_succ _) (Nat.le_of_eq hlast.symm)

theorem nextThread_mono (r : Run) (h : i ≤ k) :
    (r.state i).store.nextThread ≤ (r.state k).store.nextThread := by
  induction h with
  | refl => exact Nat.le_refl _
  | step _ ih => exact Nat.le_trans ih (r.state_change _).nextThread_le

/-- Identities are drawn in their order. -/
theorem Draws.lt (h : r.Draws j id) (h' : r.Draws d id') (hjd : j < d) : id.toNat < id'.toNat := by
  obtain ⟨-, rfl⟩ := h
  obtain ⟨hlast, rfl⟩ := h'
  have hmono : (r.state (j + 1)).store.ids.last ≤ (r.state d).store.ids.last :=
    r.ids_last_mono hjd
  simp only
  omega

/-- Every number up to the last one was drawn. -/
theorem exists_draws (hne : id ≠ .nobody) (hle : id.toNat ≤ (r.state i).store.ids.last) :
    ∃ j < i, r.Draws j id := by
  have hpos : 0 < id.toNat := by
    apply Nat.pos_of_ne_zero
    intro hzero
    exact hne (by cases id; cases hzero; rfl)
  induction i with
  | zero => exact absurd hle (Nat.not_le.2 hpos)
  | succ i ih =>
    by_cases hbefore : id.toNat ≤ (r.state i).store.ids.last
    · obtain ⟨j, hji, hdraws⟩ := ih hbefore
      exact ⟨j, Nat.lt_succ_of_lt hji, hdraws⟩
    · have hlast := (r.state_change i).ids_last (r.state_sound i)
      refine ⟨i, Nat.lt_succ_self i, by omega, ?_⟩
      cases id
      simp only at hle hbefore
      exact congrArg ThreadId.mk (by omega)

/-- A start that goes on is still the one that drew the identity. -/
theorem Drawing.succ (h : r.Drawing o id t d i) {p : StartPhase} (hp : p ≠ .entry)
    (hcall : (r.state (i + 1)).call? t = some (.start o p)) : r.Drawing o id t d (i + 1) where
  draws := h.draws
  idle := h.idle
  entry := h.entry
  move := h.move
  before := Nat.lt_succ_of_lt h.before
  since j hdj hji := by
    rcases Nat.lt_or_eq_of_le hji with hlt | rfl
    · exact h.since j hdj (Nat.le_of_lt_succ hlt)
    · exact ⟨p, hp, hcall⟩

/-- A start that holds an identity has drawn it. -/
theorem drawing_of_spawn (h : (r.state i).call? t = some (.start o (.spawn id))) :
    ∃ d, r.Drawing o id t d i := by
  induction i with
  | zero => cases h
  | succ i ih =>
    obtain hcall | ⟨-, hfresh⟩ | ⟨choice, call, hmove, hcall, hstep⟩ :=
      Machine.thread_arises (r.state_allows i) (r.state_sound i) h rfl
    · obtain ⟨d, hdrawing⟩ := ih hcall
      exact ⟨d, hdrawing.succ (by simp) h⟩
    · cases hfresh
    · obtain ⟨rfl, hidle, hlast, hid⟩ := Call.entry_of_spawn hstep
      refine ⟨i, ⟨hlast, hid⟩, hidle, hcall, ⟨choice, hmove⟩, Nat.lt_succ_self i, ?_⟩
      intro j hij hji
      obtain rfl : j = i + 1 := Nat.le_antisymm hji hij
      exact ⟨_, by simp, h⟩

/-- So has a start that has spawned a thread for the identity. -/
theorem drawing_of_record {child : Tid}
    (h : (r.state i).call? t = some (.start o (.record id child))) :
    ∃ d, r.Drawing o id t d i := by
  induction i with
  | zero => cases h
  | succ i ih =>
    have hdrawing : ∃ d, r.Drawing o id t d i := by
      rcases Machine.record_cases (r.state_allows i) (r.state_sound i) h with hcall | ⟨hcall, -⟩
      · exact ih hcall
      · exact drawing_of_spawn hcall
    obtain ⟨d, hdrawing⟩ := hdrawing
    exact ⟨d, hdrawing.succ (by simp) h⟩

/-- An object that goes on running does so since the same start. -/
theorem MadeRun.succ (h : r.MadeRun o id d k i)
    (hrunning : ((r.state (i + 1)).store.threads.get o).running = true)
    (hid : ((r.state (i + 1)).store.threads.get o).id = id) : r.MadeRun o id d k (i + 1) where
  drawing := h.drawing
  before := Nat.lt_succ_of_lt h.before
  since j hkj hji := by
    rcases Nat.lt_or_eq_of_le hji with hlt | rfl
    · exact h.since j hkj (Nat.le_of_lt_succ hlt)
    · exact ⟨hrunning, hid⟩

/-- What a running object shows was drawn by the start that made it run. -/
theorem exists_madeRun (h : ((r.state i).store.threads.get o).running = true) :
    ∃ d k, r.MadeRun o ((r.state i).store.threads.get o).id d k i := by
  induction i with
  | zero => cases h
  | succ i ih =>
    -- the object was running before with the same identity, or this move makes it run
    have hkept (hbefore : ((r.state i).store.threads.get o).running = true)
        (hid : ((r.state (i + 1)).store.threads.get o).id = ((r.state i).store.threads.get o).id) :
        ∃ d k, r.MadeRun o ((r.state (i + 1)).store.threads.get o).id d k (i + 1) := by
      obtain ⟨d, k, hmade⟩ := ih hbefore
      exact ⟨d, k, hid ▸ hmade.succ h hid⟩
    cases (r.state i).threadEvent (r.move i) o with
    | kept hsame =>
      rw [← state_succ] at hsame
      exact hkept (hsame ▸ h) (congrArg Thread.id hsame)
    | new _ hnew =>
      rw [state_succ, hnew] at h
      cases h
    | @touched t choice call hmove hcall htouches =>
      rw [← state_succ] at htouches
      generalize hth : (r.state (i + 1)).store.threads.get o = th' at htouches h hkept ⊢
      cases htouches with
      | configured =>
        rw [Thread.configured_running] at h
        exact hkept h (Thread.configured_id ..)
      | @started id child =>
        obtain ⟨d, hdrawing⟩ := drawing_of_record hcall
        refine ⟨d, i, ⟨t, hdrawing, ⟨choice, hmove⟩, child, hcall⟩, Nat.lt_succ_self i, ?_⟩
        intro j hij hji
        obtain rfl : j = i + 1 := Nat.le_antisymm hji hij
        rw [hth]
        exact ⟨rfl, rfl⟩
      | taken | refused => exact hkept h rfl
      | joined | detached => cases h

/-! ## Identities of threads

A started thread is given the identity that its object shows; any other thread draws one when it
first asks. The counter is a natural number here, and a word of 64 bits in the program, where a draw
that would overflow it is fatal: as long as that has not happened the two are the same
(`drawWord_eq`). -/

/-- A thread that has an identity keeps it for ever. -/
theorem own_stable (h : i ≤ k) (hown : (r.state i).store.ids.own.get t ≠ .nobody) :
    (r.state k).store.ids.own.get t = (r.state i).store.ids.own.get t := by
  induction h with
  | refl => rfl
  | @step k _ ih => exact ((r.state_change k).own (r.state_sound k) (ih ▸ hown)).trans ih

/-- A thread that asks is told its identity. -/
theorem current_step {m : Machine} (hcall : m.call? t = some .currentId) (choice : Choice) :
    ∃ id, (m.advance t choice).2 = .replied (.identity id) ∧ id ≠ .nobody ∧
      (m.advance t choice).1.store.ids.own.get t = id ∧
      (m.store.ids.own.get t ≠ .nobody → id = m.store.ids.own.get t) := by
  obtain ⟨outer, hget⟩ := List.head?_eq_some_iff.1 hcall
  have hadvance : m.advance t choice = (⟨(m.store.currentId t).1, m.calls.set t outer⟩,
      .replied (.identity (m.store.currentId t).2)) := by
    simp only [Machine.advance, hget, Call.step]
  rw [hadvance]
  refine ⟨_, rfl, ?_⟩
  simp only [Store.currentId]
  rcases Identities.current_cases m.store.ids t with ⟨hown, heq⟩ | ⟨hown, heq⟩ <;> rw [heq]
  · exact ⟨hown, rfl, fun _ => rfl⟩
  · refine ⟨?_, Table.get_set_self .., fun hne => absurd hown hne⟩
    simp [Identities.draw, ThreadId.nobody]

/-- The source of identities as a machine word: it is counted up, and a draw fails where it
overflows. -/
def drawWord (last : UInt64) : Option UInt64 :=
  if last + 1 = 0 then none else some (last + 1)

/-- The word goes the way of the number as long as that is below its limit. -/
theorem drawWord_eq {last : Nat} (h : last + 1 < UInt64.size) :
    drawWord (.ofNat last) = some (.ofNat (last + 1)) ∧
      (UInt64.ofNat (last + 1)).toNat = last + 1 := by
  have hnext : (UInt64.ofNat (last + 1)).toNat = last + 1 := by
    rw [UInt64.toNat_ofNat']
    exact Nat.mod_eq_of_lt h
  have hword : UInt64.ofNat last + 1 = UInt64.ofNat (last + 1) := by
    rw [UInt64.ofNat_add]
    rfl
  refine ⟨?_, hnext⟩
  rw [drawWord, hword, if_neg]
  intro hzero
  rw [hzero] at hnext
  exact absurd hnext (by simp)

/-- Who is who among threads, and what thread objects show of it. -/
structure Identifies (r : Run) : Prop where
  /-- No two threads that ever ran have held the same identity. -/
  distinct : ∀ t u i k, (r.state i).store.ids.own.get t = (r.state k).store.ids.own.get u →
    (r.state i).store.ids.own.get t ≠ .nobody → t = u
  stable : ∀ t i k, i ≤ k → (r.state i).store.ids.own.get t ≠ .nobody →
    (r.state k).store.ids.own.get t = (r.state i).store.ids.own.get t
  /-- A thread that asks is told an identity, the one it has if it has one, and keeps it. -/
  told : ∀ t i, (r.state i).call? t = some .currentId → ∀ choice,
    ∃ id, ((r.state i).advance t choice).2 = .replied (.identity id) ∧ id ≠ .nobody ∧
      ((r.state i).advance t choice).1.store.ids.own.get t = id ∧
      ((r.state i).store.ids.own.get t ≠ .nobody → id = (r.state i).store.ids.own.get t)
  /-- A thread that is to install an identity has none, and then has that one. -/
  installs : ∀ t i id, (r.state i).call? t = some (.install id) →
    (r.state i).store.ids.own.get t = .nobody ∧ ∀ choice,
      ((r.state i).advance t choice).2 = .replied .nothing ∧
      ((r.state i).advance t choice).1.store.ids.own.get t = id
  /-- A running object shows the identity of its thread: that is about to install it, or has it and
  is told so. -/
  shows : ∀ o i, ((r.state i).store.threads.get o).running = true →
    ((r.state i).store.threads.get o).id ≠ .nobody ∧
    ∃ child,
      (((r.state i).store.threads.get o).handle = none ∨
        ((r.state i).store.threads.get o).handle = some child) ∧
      ((r.state i).call? child = some (.install ((r.state i).store.threads.get o).id) ∨
        (r.state i).store.ids.own.get child = ((r.state i).store.threads.get o).id ∧
          ∀ choice, (r.state i).call? child = some .currentId →
            ((r.state i).advance child choice).2 =
              .replied (.identity ((r.state i).store.threads.get o).id))
  apart : ∀ o o' i, ((r.state i).store.threads.get o).running = true →
    ((r.state i).store.threads.get o').running = true →
    ((r.state i).store.threads.get o).id = ((r.state i).store.threads.get o').id → o = o'
  /-- What a running object shows was drawn by the start that made it run, while it was not running;
  so it is greater than all that was drawn before. -/
  drawn : ∀ o i, ((r.state i).store.threads.get o).running = true →
    ∃ d k, r.MadeRun o ((r.state i).store.threads.get o).id d k i ∧
      ∀ e id', e < d → r.Draws e id' → id'.toNat < ((r.state i).store.threads.get o).id.toNat
  /-- What a thread has was drawn. -/
  held : ∀ t i, (r.state i).store.ids.own.get t ≠ .nobody →
    ∃ j < i, r.Draws j ((r.state i).store.ids.own.get t)
  /-- What is drawn is greater than all that was drawn before. -/
  ascending : ∀ j d id id', r.Draws j id → r.Draws d id' → j < d → id.toNat < id'.toNat
  /-- A source that is a machine word gives the same identities below its limit. -/
  word : ∀ i id, r.Draws i id → id.toNat < UInt64.size →
    drawWord (.ofNat (r.state i).store.ids.last) = some (.ofNat id.toNat) ∧
      (UInt64.ofNat id.toNat).toNat = id.toNat

/-- In every run, whatever threads and objects there are, identities tell threads apart for ever,
and a running object shows that of its own thread. -/
theorem thread_identities (r : Run) : r.Identifies where
  distinct := by
    intro t u i k heq hne
    have hleft := own_stable (Nat.le_max_left i k) hne
    have hright := own_stable (Nat.le_max_right i k) (heq ▸ hne)
    refine (r.state_identified (max i k)).distinct t u ?_ (hleft ▸ hne)
    rw [hleft, hright, heq]
  stable := fun _ _ _ => own_stable
  told := fun _ _ => current_step
  installs := by
    intro t i id hcall
    have hown := (r.state_named i).fresh t id hcall
    exact ⟨hown, Machine.install_step hcall hown⟩
  shows := by
    intro o i hrunning
    obtain ⟨child, ⟨hne, hbears⟩, hhandle⟩ := (r.state_named i).object o hrunning
    refine ⟨hne, child, hhandle, hbears.imp_right fun hown => ⟨hown, fun choice hcall => ?_⟩⟩
    obtain ⟨id, hnotice, -, -, hid⟩ := current_step hcall choice
    rw [hnotice, hid (hown ▸ hne), hown]
  apart := by
    intro o o' i hrunning hrunning' heq
    exact Sum.inr.inj ((r.state_named i).single _ _ _
      (Machine.claim_object.2 ⟨hrunning, heq⟩) (Machine.claim_object.2 ⟨hrunning', rfl⟩))
  drawn := by
    intro o i hrunning
    obtain ⟨d, k, hmade⟩ := exists_madeRun hrunning
    obtain ⟨t, hdrawing, -⟩ := hmade.drawing
    exact ⟨d, k, hmade, fun e id' hed hdraws => hdraws.lt hdrawing.draws hed⟩
  held := by
    intro t i hne
    exact exists_draws hne ((r.state_identified i).bound t)
  ascending := fun _ _ _ _ => Draws.lt
  word := by
    rintro i id ⟨hlast, rfl⟩ hlimit
    rw [hlast] at hlimit ⊢
    exact drawWord_eq hlimit

/-- Thread 0 starts a thread object, joins it and starts it again. -/
def restarted : Run :=
  ofList
    ([.create (.thread none none), .begin 0 (.starting 0)] ++ steps 0 3 ++ steps 1 1 ++
      [.exit 1 .returned, .begin 0 (.joining 0)] ++ steps 0 2 ++ [.begin 0 (.starting 0)] ++
      steps 0 3 ++ steps 2 1) (by decide +kernel)

/-- The object shows the identity of its first thread, and later that of its second one. -/
theorem thread_identities_restarted :
    restarted.Identifies ∧
      (restarted.state 6).store.threads.get 0 = ⟨⟨1⟩, some 1, .running, none, none⟩ ∧
      (restarted.state 6).store.ids.own.get 1 = ⟨1⟩ ∧
      ((restarted.state 10).store.threads.get 0).running = false ∧
      (restarted.state 15).store.threads.get 0 = ⟨⟨2⟩, some 2, .running, none, none⟩ ∧
      (restarted.state 15).store.ids.own.get 2 = ⟨2⟩ :=
  ⟨thread_identities restarted, by decide +kernel⟩

end Run

end Interlock
