import Interlock.Time
import Interlock.Mutex
import Interlock.Monitor
import Interlock.Once
import Interlock.Record

/-!
# The shared store

Everything the threads of a process share: the clock, the source of identities, every object, the
threads of the operating system, and the log.

  * `OsThread`: a thread of the operating system, its name and how it ended;
  * `Store`, and for each kind of object how one is created and changed;
  * `Store.report` adds a record to the log.
-/

namespace Interlock

inductive Ending where
  | returned
  | panicked (why : Panic)
  deriving DecidableEq

structure OsThread where
  /-- The name it was created with. -/
  name : Option String
  /-- The name that the operating system shows. -/
  osName : List UInt8
  ending : Option Ending
  deriving DecidableEq

instance : Inhabited OsThread := ⟨⟨none, [], none⟩⟩

/-- The state shared by all threads. -/
structure Store where
  clock : Instant
  ids : Identities
  /-- The handle of the next object. -/
  nextHandle : Nat
  /-- The number of the next thread of the operating system. -/
  nextThread : Tid
  osThreads : Table OsThread
  locks : Table Mutex
  /-- How many monitors use a mutex. -/
  lockUsers : Table Nat
  conds : Table Condition
  onces : Table Once
  monitors : Table Monitor
  semaphores : Table Semaphore
  events : Table WakeEvents
  threads : Table Thread
  /-- The records of the log, newest first. -/
  log : List Record

namespace Store

/-- The store of a process in which only thread 0 runs. -/
def initial : Store :=
  { clock := .start, ids := .initial, nextHandle := 0, nextThread := 1, osThreads := .empty,
    locks := .empty, lockUsers := .empty, conds := .empty, onces := .empty, monitors := .empty,
    semaphores := .empty, events := .empty, threads := .empty, log := [] }

instance : Inhabited Store := ⟨initial⟩

/-! ## Log and identities -/

def report (s : Store) (r : Record) : Store := { s with log := r :: s.log }

/-- The identity of thread `t`, drawn now if it has none. -/
def currentId (s : Store) (t : Tid) : Store × ThreadId :=
  let (ids, id) := s.ids.current t
  ({ s with ids := ids }, id)

/-- Draws an identity for a thread to be. -/
def drawId (s : Store) : Store × ThreadId :=
  let (ids, id) := s.ids.draw
  ({ s with ids := ids }, id)

/-! ## Reading and changing objects -/

def lock (s : Store) (l : LockRef) : Option LockState := (s.locks.get l).state

def setMutex (s : Store) (l : LockRef) (m : Mutex) : Store := { s with locks := s.locks.set l m }

def setLock (s : Store) (l : LockRef) (lock : LockState) : Store := s.setMutex l ⟨some lock⟩

def setCond (s : Store) (c : CondRef) (cond : Condition) : Store :=
  { s with conds := s.conds.set c cond }

def setOnce (s : Store) (o : OnceRef) (once : Once) : Store :=
  { s with onces := s.onces.set o once }

def setSemaphore (s : Store) (r : SemaphoreRef) (sem : Semaphore) : Store :=
  { s with semaphores := s.semaphores.set r sem }

def setEvents (s : Store) (e : EventsRef) (events : WakeEvents) : Store :=
  { s with events := s.events.set e events }

def setThread (s : Store) (r : ThreadRef) (th : Thread) : Store :=
  { s with threads := s.threads.set r th }

def setOsThread (s : Store) (t : Tid) (th : OsThread) : Store :=
  { s with osThreads := s.osThreads.set t th }

/-! ## Creating objects -/

/-- A handle that was never given out. -/
def takeHandle (s : Store) : Store × Nat :=
  ({ s with nextHandle := s.nextHandle + 1 }, s.nextHandle)

def addMutex (s : Store) (m : Mutex) : Store × LockRef :=
  let (s, l) := s.takeHandle
  (s.setMutex l m, l)

def addCond (s : Store) (cond : Condition) : Store × CondRef :=
  let (s, c) := s.takeHandle
  (s.setCond c cond, c)

/-- A new run-once gate over a mutex of its own. -/
def addOnce (s : Store) : Store × OnceRef :=
  let (s, l) := s.addMutex .ready
  let (s, o) := s.takeHandle
  (s.setOnce o ⟨l, false⟩, o)

/-- A new monitor over an existing mutex. -/
def addMonitorOver (s : Store) (l : LockRef) (backend : Backend) : Store × MonitorRef :=
  let (s, c) := s.addCond (.new backend)
  let (s, mo) := s.takeHandle
  ({ s with
      monitors := s.monitors.set mo ⟨l, c⟩
      lockUsers := s.lockUsers.set l (s.lockUsers.get l + 1) }, mo)

/-- A new monitor with a mutex of its own. -/
def addMonitor (s : Store) (backend : Backend) : Store × MonitorRef :=
  let (s, l) := s.addMutex .ready
  s.addMonitorOver l backend

def monitorBackend (s : Store) (mo : MonitorRef) : Option Backend :=
  (s.conds.get (s.monitors.get mo).cond).backend?

/-- A new monitor over the mutex of another one, with the same backend. -/
def shareMonitor (s : Store) (other : MonitorRef) : Store × MonitorRef :=
  s.addMonitorOver (s.monitors.get other).lock ((s.monitorBackend other).getD .native)

def addSemaphore? (s : Store) (permits : Permits) : Except Panic (Store × SemaphoreRef) :=
  if permits.valid then
    let (s, r) := s.takeHandle
    .ok (s.setSemaphore r (.new permits), r)
  else
    .error .semaphoreBounds

def addEvents (s : Store) : Store × EventsRef :=
  let (s, e) := s.takeHandle
  (s.setEvents e .new, e)

/-- Reports that a name loses what follows its first NUL. -/
def reportName (s : Store) (name : String) : Store :=
  if ThreadName.hasNul name then s.report (.nameCut name) else s

def reportName? (s : Store) : Option String → Store
  | some name => s.reportName name
  | none => s

/-- A report about a name is in the log and nowhere else. -/
theorem exists_reportName_eq (s : Store) (name : String) :
    ∃ log, s.reportName name = { s with log := log } := by
  unfold reportName
  split
  · exact ⟨.nameCut name :: s.log, rfl⟩
  · exact ⟨s.log, rfl⟩

theorem exists_reportName?_eq (s : Store) (name : Option String) :
    ∃ log, s.reportName? name = { s with log := log } := by
  cases name with
  | none => exact ⟨s.log, rfl⟩
  | some text => exact s.exists_reportName_eq text

def addThread (s : Store) (name : Option String) (stackSize : Option Nat) : Store × ThreadRef :=
  let (s, r) := (s.reportName? name).takeHandle
  (s.setThread r (.new (name.map ThreadName.untilNul) stackSize), r)

/-- Changes a setting of a thread object. -/
def configureThread (s : Store) (r : ThreadRef) (setting : ThreadSetting) : Store :=
  let s := match setting with
    | .name text => s.reportName text
    | .stackSize _ => s
  s.setThread r ((s.threads.get r).configured setting)

/-- A change of a setting is in the thread object, in the log, and nowhere else. -/
theorem exists_configureThread_eq (s : Store) (r : ThreadRef) (setting : ThreadSetting) :
    ∃ log, s.configureThread r setting =
      { s with log := log, threads := s.threads.set r ((s.threads.get r).configured setting) } := by
  cases setting with
  | name text =>
    obtain ⟨log, hreport⟩ := s.exists_reportName_eq text
    exact ⟨log, by simp only [configureThread, hreport, setThread]⟩
  | stackSize bytes => exact ⟨s.log, rfl⟩

/-! ## Threads of the operating system -/

/-- A new thread of the operating system; an unnamed one shows the name of its creator. -/
def addOsThread (s : Store) (creator : Tid) (name : Option String) : Store × Tid :=
  let osName := match name with
    | some text => ThreadName.osBytes text
    | none => (s.osThreads.get creator).osName
  ({ s with
      nextThread := s.nextThread + 1
      osThreads := s.osThreads.set s.nextThread ⟨name, osName, none⟩ }, s.nextThread)

def nameThread (s : Store) (t : Tid) (name : String) : Store :=
  let s := s.reportName name
  s.setOsThread t { s.osThreads.get t with osName := ThreadName.osBytes name }

def endThread (s : Store) (t : Tid) (ending : Ending) : Store :=
  s.setOsThread t { s.osThreads.get t with ending := some ending }

end Store

end Interlock
