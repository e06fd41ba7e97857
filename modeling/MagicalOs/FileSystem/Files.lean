import MagicalOs.Kernel.CommonRoutines
import MagicalOs.Kernel.ListQueue
import MagicalOs.Kernel.TaskCreation
import MagicalOs.Library.HeadedRing

/-!
# Opening files

`fs_init` puts the two static files of `fs.c` on the queue of `fhead`, with
addresses computed from the base of the image.  `fs_open` walks over the queue
and compares the name of each file with the one it is given.  Both loops are
bounded by the same number of iterations.
-/

namespace MagicalOs.FileSystem.Files

open MagicalOs.Library.ByteMemory
open MagicalOs.Library.HeadedRing
open MagicalOs.Library.HeldBytes
open MagicalOs.Library.SentinelList
open MagicalOs.Kernel.HeapPages
open MagicalOs.Kernel.TaskCreation (File)
open MagicalOs.Kernel.CommonRoutines
open MagicalOs.Kernel.ListQueue

/-- The static objects of `fs.c` which hold links. -/
inductive Entry where
  | fhead
  | fshell
  | fuptime
  deriving DecidableEq

/-- `fhead`, `fshell` and `fuptime`. -/
structure FileTable where
  links : Links Entry
  numFiles : Byte
  file : Entry → File

/-- The name and the address of the data of a file. -/
def FileTable.setFile (fs : FileTable) (entry : Entry) (file : File) :
    FileTable :=
  { fs with file := Function.update fs.file entry file }

/-- `queue_enq` on the queue of `fhead`. -/
def FileTable.enq (fs : FileTable) (entry : Entry) : FileTable :=
  { fs with links := queueEnq fs.links entry .fhead }

/-- `fs_init`. -/
def fsInit (mem : Memory) (fsBaseAddr : Nat) (fs : FileTable) : FileTable :=
  let fs :=
    { fs with
      links := queueInit fs.links .fhead
      numFiles := mem fsBaseAddr }
  let fs := fs.setFile .fshell
    { name := fsBaseAddr + pageSize
      dataBaseAddr := fsBaseAddr + pageSize + 32 }
  let fs := fs.enq .fshell
  let fs := fs.setFile .fuptime
    { name := fsBaseAddr + pageSize * 2
      dataBaseAddr := fsBaseAddr + pageSize * 2 + 32 }
  fs.enq .fuptime

/-- The test `!str_compare(name, f->name)`. -/
def isNamed (mem : Memory) (fs : FileTable) (name iterations : Nat)
    (f : Entry) : Option Bool :=
  (strCompare mem iterations name (fs.file f).name).map (· = 0)

/-- `fs_open`; without a result the iterations do not suffice. -/
def fsOpen (mem : Memory) (fs : FileTable) (name iterations : Nat) :
    Option (Option Entry) :=
  searchPartial fs.links.next .fhead (isNamed mem fs name iterations)
    iterations (fs.links.next .fhead)

/-! ## The queue of files -/

section Queue

variable (mem : Memory) (fsBaseAddr : Nat) (fs : FileTable)

theorem fsInit_queued :
    Queued (fsInit mem fsBaseAddr fs).links .fhead [.fshell, .fuptime] := by
  have initial := queueInit_queued fs.links .fhead
  have one : Queued (queueEnq (queueInit fs.links .fhead) .fshell .fhead)
      .fhead [.fshell] :=
    queueEnq_queued initial (by decide)
  exact queueEnq_queued one (by decide)

/-- The files on the queue are the two files task creation knows of. -/
theorem fsInit_files :
    [.fshell, .fuptime].map (fsInit mem fsBaseAddr fs).file =
      MagicalOs.Kernel.TaskCreation.fsInit fsBaseAddr :=
  rfl

end Queue

/-! ## The search for a name -/

section Open

variable {mem : Memory} {fs : FileTable} {query : List Byte}
  {text : Entry → List Byte} {entries : List Entry}
  {name iterations : Nat}

/-- Where the name is a C string, it is compared with the query. -/
theorem isNamed_of_holds {f : Entry} {label : List Byte}
    (held : HoldsString mem name query)
    (named : HoldsString mem (fs.file f).name label)
    (enough : query.length < iterations) :
    isNamed mem fs name iterations f = some (decide (query = label)) := by
  rcases strCompare_spec held named enough with ⟨order, result, zero⟩
  rw [isNamed, result, Option.map_some]
  exact congrArg some (decide_eq_decide.mpr zero)

/-- `fs_open` finds the first file on the queue whose name is the query. -/
theorem fsOpen_eq_find (queued : Queued fs.links .fhead entries)
    (held : HoldsString mem name query)
    (names : ∀ f, f ∈ entries → HoldsString mem (fs.file f).name (text f))
    (enough : query.length + entries.length < iterations) :
    fsOpen mem fs name iterations =
      some (entries.find? fun f => query = text f) := by
  refine (listed_of_ring queued).searchPartial ?_ (by omega)
  intro f member
  exact isNamed_of_holds held (names f member) (by omega)

end Open

end MagicalOs.FileSystem.Files
