import Interlock.Proofs.Sight
import Interlock.Proofs.Thread.Charge

/-!
# The cuts of thread names

A name loses what follows its first NUL, and the operating system is given fifteen bytes of the rest
at most. The first cut lies between two characters, the second one anywhere. No NUL gets past the
first cut, so nothing that is done with a name later on fails for one.

  * `ThreadName.nulPos`, `ThreadName.keptSize`: the first NUL of a name, and the bytes before it;
    `ThreadName.exists_lost`: what is kept of a name and what is lost;
  * `ThreadName.Cut`, `ThreadName.cut`: what the two cuts leave, in characters and in bytes;
  * `Run.object_name_cases`: the name of a thread object is written by its creation and by the call
    that sets it, and by nothing else;
  * `Run.KeepsNames`, `Run.thread_names`: what becomes of names in a run, and what is logged.
-/

namespace Interlock

namespace ThreadName

variable {name : String}

/-! ## The bytes of a text

A character but NUL has no zero among its bytes: every byte of a longer encoding has its highest bit
set. So the first zero among the bytes of a text is its first NUL. -/

/-- NUL is the only character with a zero byte. -/
theorem zero_mem_utf8EncodeChar {c : Char} : 0 ∈ String.utf8EncodeChar c ↔ c = '\x00' := by
  constructor
  · intro h
    obtain hsize | hsize | hsize | hsize := c.utf8Size_eq
    · rw [String.utf8EncodeChar_eq_singleton hsize, List.mem_singleton] at h
      have hle : c.val.toNat ≤ 127 := UInt32.le_iff_toNat_le.1 (Char.utf8Size_eq_one_iff.1 hsize)
      have hzero : c.val.toNat % 256 = 0 := (congrArg UInt8.toNat h).symm
      exact Char.ext (UInt32.toNat_inj.1 (show c.val.toNat = 0 by omega))
    -- no disjunction with a lead or a tail mark is zero
    · rw [String.utf8EncodeChar_eq_cons_cons hsize] at h
      simp [eq_comm (a := (0 : UInt8))] at h
    · rw [String.utf8EncodeChar_eq_cons_cons_cons hsize] at h
      simp [eq_comm (a := (0 : UInt8))] at h
    · rw [String.utf8EncodeChar_eq_cons_cons_cons_cons hsize] at h
      simp [eq_comm (a := (0 : UInt8))] at h
  · rintro rfl
    decide

theorem zero_mem_bytes : 0 ∈ bytes name ↔ '\x00' ∈ name.toList := by
  simp [bytes, zero_mem_utf8EncodeChar]

theorem data_toUTF8 (name : String) : name.toUTF8.data.toList = bytes name := by
  rw [String.toUTF8_eq_toByteArray, ← String.utf8Encode_toList, List.utf8Encode,
    List.toList_data_toByteArray, bytes]

theorem length_bytes (name : String) : (bytes name).length = name.utf8ByteSize := by
  rw [← data_toUTF8, String.toUTF8_eq_toByteArray, ← String.size_toByteArray]
  rfl

theorem bytes_append (s t : String) : bytes (s ++ t) = bytes s ++ bytes t := by
  simp [bytes]

/-! ## The first NUL

The cut is made at a position of the string; what it leaves is told three times, in characters, in
bytes and by the place of the first zero byte, and the three are proved to be the same. -/

theorem toList_untilNul (name : String) :
    (untilNul name).toList = name.toList.takeWhile (· != '\x00') :=
  String.toList_ofList

theorem not_mem_untilNul (name : String) : '\x00' ∉ (untilNul name).toList := by
  intro h
  rw [toList_untilNul] at h
  simpa using List.all_eq_true.1 List.all_takeWhile _ h

theorem zero_not_mem_untilNul (name : String) : 0 ∉ bytes (untilNul name) :=
  fun h => not_mem_untilNul name (zero_mem_bytes.1 h)

theorem takeWhile_append_of_free {cs : List Char} (h : '\x00' ∉ cs) (rest : List Char) :
    (cs ++ rest).takeWhile (· != '\x00') = cs ++ rest.takeWhile (· != '\x00') := by
  refine List.takeWhile_append_of_pos fun c hc => ?_
  simpa using ne_of_mem_of_not_mem hc h

/-- A beginning of a name without a NUL is kept. -/
theorem kept_of_begins {cs : List Char} (hbegins : cs <+: name.toList) (h : '\x00' ∉ cs) :
    cs <+: (untilNul name).toList := by
  obtain ⟨rest, heq⟩ := hbegins
  rw [toList_untilNul, ← heq, takeWhile_append_of_free h]
  exact List.prefix_append ..

theorem untilNul_append {kept : String} (lost : String) (h : '\x00' ∉ kept.toList)
    (hlost : lost.toList.takeWhile (· != '\x00') = []) : untilNul (kept ++ lost) = kept := by
  rw [← String.toList_inj, toList_untilNul, String.toList_append, takeWhile_append_of_free h,
    hlost, List.append_nil]

theorem untilNul_eq_self (h : '\x00' ∉ name.toList) : untilNul name = name := by
  simpa using untilNul_append "" h rfl

theorem untilNul_untilNul (name : String) : untilNul (untilNul name) = untilNul name :=
  untilNul_eq_self (not_mem_untilNul name)

/-- The place of the first NUL of a name, its end if there is none. -/
def nulPos (name : String) : name.Pos := (name.find? '\x00').getD name.endPos

/-- How many bytes of a name lie before its first NUL. -/
def keptSize (name : String) : Nat := (nulPos name).offset.byteIdx

/-- The first NUL parts a name into what is kept and what is lost. -/
theorem exists_lost (name : String) : ∃ lost, (nulPos name).Splits (untilNul name) lost ∧
    (lost = "" ∨ ∃ rest, lost = String.singleton '\x00' ++ rest) := by
  rw [nulPos]
  cases hfind : name.find? '\x00' with
  | none =>
    have hfree : '\x00' ∉ name.toList := by
      simpa [String.find?_eq_find?_toSlice] using hfind
    rw [untilNul_eq_self hfree]
    exact ⟨"", name.splits_endPos, .inl rfl⟩
  | some pos =>
    obtain ⟨kept, rest, hsplits, hfree⟩ := String.find?_char_eq_some_iff_splits.1 hfind
    have hkept : untilNul name = kept := by
      rw [hsplits.eq_append]
      exact untilNul_append _ hfree (by simp)
    rw [hkept]
    exact ⟨_, hsplits, .inr ⟨rest, rfl⟩⟩

/-- In bytes, what is kept is the beginning of the encoding. -/
theorem toUTF8_untilNul (name : String) :
    (untilNul name).toUTF8 = name.toUTF8.extract 0 (keptSize name) := by
  obtain ⟨lost, hsplits, -⟩ := exists_lost name
  rw [String.toUTF8_eq_toByteArray, String.toUTF8_eq_toByteArray]
  exact hsplits.toByteArray_left_eq

/-- The same as a list. -/
theorem bytes_untilNul (name : String) :
    bytes (untilNul name) = (bytes name).take (keptSize name) := by
  rw [← data_toUTF8, toUTF8_untilNul, ByteArray.data_extract, Array.toList_extract, data_toUTF8]
  simp

/-- It ends where the first zero byte is. -/
theorem keptSize_eq_idxOf (name : String) : keptSize name = (bytes name).idxOf 0 := by
  obtain ⟨lost, hsplits, hlost⟩ := exists_lost name
  -- what is lost begins with the NUL, if anything is
  have hzero : (bytes lost).idxOf 0 = 0 := by
    obtain rfl | ⟨rest, rfl⟩ := hlost
    · rfl
    · rw [bytes_append]
      rfl
  calc keptSize name
      = (bytes (untilNul name)).length := by
        rw [length_bytes, keptSize, hsplits.offset_eq_rawEndPos, String.byteIdx_rawEndPos]
    _ = (bytes (untilNul name) ++ bytes lost).idxOf 0 := by
        rw [List.idxOf_append, if_neg (zero_not_mem_untilNul name), hzero, Nat.zero_add]
    _ = (bytes name).idxOf 0 := by
        rw [← bytes_append, ← hsplits.eq_append]

/-! ## The two cuts

The second cut is made in bytes, fifteen of them, and it may go through a character; then what the
operating system has is no text any more. That it is one exactly where the fifteenth byte is the
last of a character is `whole_iff`. -/

theorem terminated?_of_free {bs : List UInt8} (h : 0 ∉ bs) : terminated? bs = some bs :=
  if_neg (by simpa using h)

/-- No NUL comes to the second cut, so its bytes are taken as they are. -/
theorem terminated?_untilNul (name : String) :
    terminated? ((bytes (untilNul name)).take osLimit) =
      some ((bytes (untilNul name)).take osLimit) :=
  terminated?_of_free fun h => zero_not_mem_untilNul name (List.mem_of_mem_take h)

/-- So the operating system has the first bytes of what is kept. -/
theorem osBytes_eq (name : String) : osBytes name = (bytes (untilNul name)).take osLimit := by
  rw [osBytes, terminated?_untilNul, Option.getD_some]

/-- They are the first bytes of the name itself. -/
theorem osBytes_eq_take (name : String) :
    osBytes name = (bytes name).take (min 15 (keptSize name)) := by
  rw [osBytes_eq, bytes_untilNul, List.take_take, osLimit]

/-- The same as an array. -/
theorem toByteArray_osBytes (name : String) :
    (osBytes name).toByteArray = name.toByteArray.extract 0 (min 15 (keptSize name)) := by
  apply ByteArray.ext
  rw [← Array.toList_inj, List.toList_data_toByteArray, ByteArray.data_extract,
    Array.toList_extract, osBytes_eq_take, ← data_toUTF8, String.toUTF8_eq_toByteArray]
  simp

/-- They are a text where the cut lies between two characters. -/
theorem isValidUTF8_osBytes_iff (name : String) : (osBytes name).toByteArray.IsValidUTF8 ↔
    String.Pos.Raw.IsValid name ⟨min 15 (keptSize name)⟩ := by
  have hle : min 15 (keptSize name) ≤ name.utf8ByteSize :=
    Nat.le_trans (Nat.min_le_right ..) (nulPos name).isValid.le_rawEndPos
  rw [String.Pos.Raw.isValid_iff_isValidUTF8_extract_zero, toByteArray_osBytes]
  exact (and_iff_right hle).symm

/-- What the cuts of a name leave. -/
structure Cut (name : String) : Prop where
  /-- What is kept is the longest beginning of the name without a NUL: -/
  begins : (untilNul name).toList <+: name.toList
  free : '\x00' ∉ (untilNul name).toList
  longest : ∀ cs, cs <+: name.toList → '\x00' ∉ cs → cs <+: (untilNul name).toList
  /-- the bytes before the first zero, all of them if there is none. -/
  size : keptSize name = name.toUTF8.data.toList.idxOf 0
  keeps : (untilNul name).toUTF8 = name.toUTF8.extract 0 (keptSize name)
  /-- They are a text, of which a second cut takes nothing away. -/
  valid : (name.toUTF8.extract 0 (keptSize name)).IsValidUTF8
  idem : untilNul (untilNul name) = untilNul name
  /-- The operating system is given the first fifteen of them, which need not be a text: the last of
  them may lie inside a character. -/
  gives : osBytes name = name.toUTF8.data.toList.take (min 15 (keptSize name))
  whole_iff : (osBytes name).toByteArray.IsValidUTF8 ↔
    String.Pos.Raw.IsValid name ⟨min 15 (keptSize name)⟩
  /-- No NUL is among them, so that one can end them. -/
  given_free : 0 ∉ osBytes name
  terminated : terminated? ((bytes (untilNul name)).take osLimit) = some (osBytes name)

/-- Every name is cut so. -/
theorem cut (name : String) : Cut name where
  begins := by
    rw [toList_untilNul]
    exact List.takeWhile_prefix _
  free := not_mem_untilNul name
  longest _ := kept_of_begins
  size := by rw [data_toUTF8, keptSize_eq_idxOf]
  keeps := toUTF8_untilNul name
  valid := by
    rw [← toUTF8_untilNul, String.toUTF8_eq_toByteArray]
    exact (untilNul name).isValidUTF8
  idem := untilNul_untilNul name
  gives := by rw [data_toUTF8, osBytes_eq_take]
  whole_iff := isValidUTF8_osBytes_iff name
  given_free := by
    rw [osBytes_eq]
    exact fun h => zero_not_mem_untilNul name (List.mem_of_mem_take h)
  terminated := by rw [terminated?_untilNul, osBytes_eq]

/-- Eight characters of two bytes each: the fifteenth byte is the first half of the last one. -/
theorem exists_split_character : ∃ name, ¬ (osBytes name).toByteArray.IsValidUTF8 := by
  refine ⟨"éééééééé", ?_⟩
  rw [← ByteArray.validateUTF8_eq_false_iff]
  decide +kernel

/-- What is logged of a name: that it is cut, once, if it has a NUL anywhere. -/
def warnings (name : String) : List Record :=
  if '\x00' ∈ name.toList then [.nameCut name] else []

end ThreadName

open ThreadName

/-! ## Steps and creations

What each step that touches a name does to the store, with its record in the log. The warning is
given where the name is cut for an object or for a running thread, and only there. -/

namespace Store

theorem reportName_eq (s : Store) (name : String) :
    s.reportName name = { s with log := warnings name ++ s.log } := by
  by_cases hnul : '\x00' ∈ name.toList <;> simp [reportName, hasNul, warnings, hnul, report]

/-- A new object has what is kept of its name. -/
theorem addThread_threads (s : Store) (name : Option String) (stackSize : Option Nat) :
    (s.addThread name stackSize).1.threads =
      s.threads.set s.nextHandle (.new (name.map untilNul) stackSize) := by
  cases name with
  | none => rfl
  | some text =>
    rw [addThread, reportName?, reportName_eq]
    rfl

theorem addThread_log (s : Store) (name : String) (stackSize : Option Nat) :
    (s.addThread (some name) stackSize).1.log = warnings name ++ s.log := by
  rw [addThread, reportName?, reportName_eq]
  rfl

/-- An object that is given a name has what is kept of it. -/
theorem configureThread_name (s : Store) (r : ThreadRef) (text : String) :
    s.configureThread r (.name text) = { s with
      log := warnings text ++ s.log
      threads := s.threads.set r { s.threads.get r with name := some (untilNul text) } } := by
  rw [configureThread, reportName_eq]
  rfl

/-- A thread that takes a name shows its first bytes to the operating system. -/
theorem nameThread_eq (s : Store) (t : Tid) (name : String) :
    s.nameThread t name = { s with
      log := warnings name ++ s.log
      osThreads := s.osThreads.set t { s.osThreads.get t with osName := osBytes name } } := by
  rw [nameThread, reportName_eq]
  rfl

end Store

/-- A call on a thread object leaves it its name, or is there to write it. -/
theorem Call.Touches.name_cases {o : ThreadRef} {call : Call} {th th' : Thread}
    (h : call.Touches o th th') :
    th'.name = th.name ∨ ∃ text, call = .configure o (.name text) := by
  cases h with
  | @configured setting =>
    cases setting with
    | name text => exact .inr ⟨text, rfl⟩
    | stackSize bytes => exact .inl rfl
  | started | taken | joined | detached | refused => exact .inl rfl

namespace Run

variable {r : Run} {o : ThreadRef} {i j : Nat} {t : Tid} {choice : Choice} {name : String}

/-! ## The names of thread objects

A name is written by the creation of its object and by the call that sets it, and both cut it. Every
other call only reads it, so between two such writes an object has one name. -/

/-- The call that sets a name replies, and its object has what is kept of that name. -/
theorem Performs.configured {notice : Notice}
    (h : r.Performs t i (.configure o (.name name)) notice) :
    notice = .replied .nothing ∧
      r.object o (i + 1) = { r.object o i with name := some (untilNul name) } ∧
      (r.state (i + 1)).store.osThreads = (r.state i).store.osThreads ∧
      (r.state (i + 1)).store.log = warnings name ++ (r.state i).store.log := by
  obtain ⟨choice, hmove, hcall, rfl⟩ := h
  have hstore : (r.state (i + 1)).store = (r.state i).store.configureThread o (.name name) :=
    (performs_of_move hmove hcall).2
  rw [Store.configureThread_name] at hstore
  refine ⟨Machine.advance_notice hcall, ?_, by rw [hstore], by rw [hstore]⟩
  rw [object, hstore, Table.get_set_self]
  rfl

/-- What can become of the name of a thread object in one move. -/
theorem object_name_cases (r : Run) (o : ThreadRef) (i : Nat) :
    (r.object o (i + 1)).name = (r.object o i).name ∨
      (∃ name stackSize, r.move i = .create (.thread name stackSize) ∧
        o = (r.state i).store.nextHandle ∧ (r.object o (i + 1)).name = name.map untilNul) ∨
      ∃ t name, r.Performs t i (.configure o (.name name)) (.replied .nothing) := by
  by_cases hborn : ∃ name stackSize, r.move i = .create (.thread name stackSize) ∧
      o = (r.state i).store.nextHandle
  · obtain ⟨name, stackSize, hmove, rfl⟩ := hborn
    refine .inr (.inl ⟨name, stackSize, hmove, rfl, ?_⟩)
    rw [object, state_succ, hmove, Machine.apply, Creation.apply, Store.addThread_threads,
      Table.get_set_self]
    rfl
  by_cases hset : ∃ t name, r.Performs t i (.configure o (.name name)) (.replied .nothing)
  · exact .inr (.inr hset)
  -- what is left are creations of other objects, and the calls that write no name
  · refine .inl (store_kept (g := fun s => (s.threads.get o).name) ?_ ?_)
    · intro c hmove
      cases c with
      | thread name stackSize =>
        have hne : o ≠ (r.state i).store.nextHandle := fun ho => hborn ⟨name, stackSize, hmove, ho⟩
        rw [Creation.apply, Store.addThread_threads, Table.get_set_of_ne _ _ hne]
      | semaphore permits =>
        simp only [Creation.apply, Store.addSemaphore?]
        cases permits.valid <;> rfl
      | _ => rfl
    · intro t choice call hmove hcall
      refine call.step_touches.imp fun s' htouched => ?_
      obtain hsame | htouches := htouched o
      · rw [hsame]
      · refine htouches.name_cases.resolve_right ?_
        rintro ⟨text, rfl⟩
        exact hset ⟨t, text, (performs_of_move hmove hcall).1⟩

/-- No object has a name with a NUL. -/
theorem object_name_free (r : Run) (o : ThreadRef) (i : Nat)
    (h : (r.object o i).name = some name) : '\x00' ∉ name.toList := by
  induction i with
  | zero => cases h
  | succ i ih =>
    obtain hsame | ⟨given, stackSize, -, -, hname⟩ | ⟨t, text, hset⟩ := r.object_name_cases o i
    · exact ih (hsame.symm.trans h)
    · rw [hname] at h
      obtain ⟨text, -, rfl⟩ := Option.map_eq_some_iff.1 h
      exact not_mem_untilNul text
    · rw [hset.configured.2.1] at h
      cases h
      exact not_mem_untilNul text

/-- An object keeps its name until it is given another one. -/
theorem object_name_stays (ho : o < (r.state i).store.nextHandle) (hij : i ≤ j)
    (h : ∀ k t name, i ≤ k → k < j →
      ¬ r.Performs t k (.configure o (.name name)) (.replied .nothing)) :
    (r.object o j).name = (r.object o i).name := by
  induction hij with
  | refl => rfl
  | @step k hik ih =>
    obtain hsame | ⟨name, stackSize, -, rfl, -⟩ | ⟨t, text, hset⟩ := r.object_name_cases o k
    · exact hsame.trans (ih fun n t name hin hnk => h n t name hin (Nat.lt_succ_of_lt hnk))
    · exact absurd (r.nextHandle_mono hik) (Nat.not_le.2 ho)
    · exact absurd hset (h k t text hik (Nat.lt_succ_self k))

/-- So a start never meets a NUL. -/
theorem object_name_filter (r : Run) (o : ThreadRef) (i : Nat) :
    (r.object o i).name.filter hasNul = none := by
  rw [Option.filter_eq_none_iff]
  intro name hname
  simpa [hasNul] using r.object_name_free o i hname

/-! ## Starts

The platform refuses a name with a NUL, and the start would panic. It never comes to that. -/

/-- A start that has drawn an identity has its thread, unless the operating system refuses it. -/
theorem spawn_notice {id : ThreadId} (choice : Choice)
    (hcall : (r.state i).call? t = some (.start o (.spawn id))) :
    ((r.state i).advance t choice).2 =
      if choice.refuse then .replied (.started none) else .working := by
  have hfree : ((r.state i).store.threads.get o).name.filter hasNul = none :=
    r.object_name_filter o i
  rw [Machine.advance_notice hcall]
  simp only [Call.step, Call.lift, StartPhase.step, hfree]
  split <;> rfl

/-- A start panics only where its object is running. -/
theorem start_panics {p : StartPhase} {why : Panic}
    (h : r.Performs t i (.start o p) (.panicked why)) :
    (r.object o i).running = true ∧ why = .violation (.startedRunning (r.object o i).id) := by
  obtain ⟨choice, hmove, hcall, hnotice⟩ := h
  cases p with
  | entry =>
    rw [Machine.advance_notice hcall] at hnotice
    simp only [Call.step, Call.lift, StartPhase.step] at hnotice
    split at hnotice
    · cases hnotice
      exact ⟨‹_›, rfl⟩
    · cases hnotice
  | spawn id =>
    rw [spawn_notice choice hcall] at hnotice
    split at hnotice <;> cases hnotice
  | record id child =>
    rw [Machine.advance_notice hcall] at hnotice
    cases hnotice

/-! ## Runs

What has been said of single steps, for every run. -/

/-- What becomes of names in a run. -/
structure KeepsNames (r : Run) : Prop where
  /-- A new thread object has what is kept of its name, -/
  created : ∀ i name stackSize, r.move i = .create (.thread (some name) stackSize) →
    r.object (r.state i).store.nextHandle (i + 1) = .new (some (untilNul name)) stackSize ∧
      (r.state (i + 1)).store.log = warnings name ++ (r.state i).store.log
  /-- and keeps just that, without a word, if it is created with it. -/
  again : ∀ i name stackSize, r.move i = .create (.thread (some (untilNul name)) stackSize) →
    r.object (r.state i).store.nextHandle (i + 1) = .new (some (untilNul name)) stackSize ∧
      (r.state (i + 1)).store.log = (r.state i).store.log
  /-- An object that is given a name has what is kept of that one from then on, and is otherwise
  as it was: a thread that it has started runs on under the old name. -/
  renamed : ∀ t i o name notice, r.Performs t i (.configure o (.name name)) notice →
    notice = .replied .nothing ∧
    r.object o (i + 1) = { r.object o i with name := some (untilNul name) } ∧
    (r.state (i + 1)).store.osThreads = (r.state i).store.osThreads ∧
    (r.state (i + 1)).store.log = warnings name ++ (r.state i).store.log
  /-- What is kept of a name is given without a word. -/
  renamed_again : ∀ t i o name notice,
    r.Performs t i (.configure o (.name (untilNul name))) notice →
    r.object o (i + 1) = { r.object o i with name := some (untilNul name) } ∧
    (r.state (i + 1)).store.log = (r.state i).store.log
  /-- No object ever has a name with a NUL, -/
  free : ∀ o i name, (r.object o i).name = some name → '\x00' ∉ name.toList
  /-- or another name than it was given last. -/
  stays : ∀ o i j, o < (r.state i).store.nextHandle → i ≤ j →
    (∀ k t name, i ≤ k → k < j →
      ¬ r.Performs t k (.configure o (.name name)) (.replied .nothing)) →
    (r.object o j).name = (r.object o i).name
  /-- A thread that takes a name shows the first fifteen bytes of what is kept. -/
  named : ∀ t i name notice, r.Performs t i (.setName name) notice → notice = .replied .nothing ∧
    (r.state (i + 1)).store.osThreads = (r.state i).store.osThreads.set t
      { (r.state i).store.osThreads.get t with
        osName := name.toUTF8.data.toList.take (min 15 (keptSize name)) } ∧
    (r.state (i + 1)).store.log = warnings name ++ (r.state i).store.log
  /-- A start has its thread unless the operating system refuses it, and panics only where its
  object is running: never because of a name. -/
  spawns : ∀ t i o id choice, (r.state i).call? t = some (.start o (.spawn id)) →
    ((r.state i).advance t choice).2 =
      if choice.refuse then .replied (.started none) else .working
  starts : ∀ t i o p why, r.Performs t i (.start o p) (.panicked why) →
    (r.object o i).running = true ∧ why = .violation (.startedRunning (r.object o i).id)

/-- The creation of an object with a name. -/
theorem created_thread {stackSize : Option Nat}
    (hmove : r.move i = .create (.thread (some name) stackSize)) :
    r.object (r.state i).store.nextHandle (i + 1) = .new (some (untilNul name)) stackSize ∧
      (r.state (i + 1)).store.log = warnings name ++ (r.state i).store.log := by
  rw [object, state_succ, hmove, Machine.apply, Creation.apply]
  refine ⟨?_, Store.addThread_log ..⟩
  rw [Store.addThread_threads, Table.get_set_self]
  rfl

theorem Performs.named {notice : Notice} (h : r.Performs t i (.setName name) notice) :
    notice = .replied .nothing ∧ (r.state (i + 1)).store = (r.state i).store.nameThread t name := by
  obtain ⟨choice, hmove, hcall, rfl⟩ := h
  exact ⟨Machine.advance_notice hcall, (performs_of_move hmove hcall).2⟩

/-- Every name is cut before its first NUL, and for the operating system after fifteen bytes, also
in the middle of a character; and in every run names are kept, given and started with as the cuts
leave them, and each loss at a NUL is logged once. -/
theorem thread_names (r : Run) : (∀ name, Cut name) ∧
    (∃ name, ¬ (osBytes name).toByteArray.IsValidUTF8) ∧ r.KeepsNames := by
  refine ⟨cut, exists_split_character, ?_⟩
  constructor
  case created => exact fun i name stackSize => created_thread
  case again =>
    intro i name stackSize hmove
    obtain ⟨hobject, hlog⟩ := created_thread hmove
    rw [untilNul_untilNul] at hobject
    rw [warnings, if_neg (not_mem_untilNul name)] at hlog
    exact ⟨hobject, hlog⟩
  case renamed =>
    intro t i o name notice hperforms
    obtain ⟨hnotice, hobject, hthreads, hlog⟩ := hperforms.configured
    exact ⟨hnotice, hobject, hthreads, hlog⟩
  case renamed_again =>
    intro t i o name notice hperforms
    obtain ⟨-, hobject, -, hlog⟩ := hperforms.configured
    rw [untilNul_untilNul] at hobject
    rw [warnings, if_neg (not_mem_untilNul name)] at hlog
    exact ⟨hobject, hlog⟩
  case free => exact fun o i name => r.object_name_free o i
  case stays => exact fun o i j => object_name_stays
  case named =>
    intro t i name notice hperforms
    obtain ⟨hnotice, hstore⟩ := hperforms.named
    rw [hstore, Store.nameThread_eq, (cut name).gives]
    exact ⟨hnotice, rfl, rfl⟩
  case spawns => exact fun t i o id choice => spawn_notice choice
  case starts => exact fun t i o p why => start_panics

/-- Thread 0 names an object, takes a name itself, starts the object, and names it anew. -/
def christened : Run :=
  ofList
    ([.create (.thread (some "io\x00worker") none), .begin 0 (.setName "éééééééé\x00")] ++
      steps 0 1 ++ [.begin 0 (.starting 0)] ++ steps 0 3 ++
      [.begin 0 (.configure 0 (.name "net\x00worker"))] ++ steps 0 1) (by decide +kernel)

/-- Each of the three names is cut with a warning, the second one for the system in the middle of
its eighth character. The object starts, and keeps its thread under the last name. -/
theorem thread_names_christened :
    christened.KeepsNames ∧ (christened.object 0 1).name = some "io" ∧
      christened.Performs 0 2 (.setName "éééééééé\x00") (.replied .nothing) ∧
      ((christened.state 3).store.osThreads.get 0).osName =
        [195, 169, 195, 169, 195, 169, 195, 169, 195, 169, 195, 169, 195, 169, 195] ∧
      christened.Launches 0 1 6 ∧ (christened.state 7).store.log =
        [.started ⟨1⟩ (some "io"), .nameCut "éééééééé\x00", .nameCut "io\x00worker"] ∧
      christened.Performs 0 8 (.configure 0 (.name "net\x00worker")) (.replied .nothing) ∧
      christened.object 0 9 = ⟨⟨1⟩, some 1, .running, some "net", none⟩ :=
  ⟨(thread_names christened).2.2, by decide +kernel,
    ⟨⟨0, false⟩, rfl, by decide +kernel, by decide +kernel⟩, by decide +kernel,
    ⟨0, .record ⟨1⟩ 1, ⟨0, false⟩, rfl, by decide +kernel, by decide +kernel⟩, by decide +kernel,
    ⟨⟨0, false⟩, rfl, by decide +kernel, by decide +kernel⟩, by decide +kernel⟩

end Run

end Interlock
