import Vgi.Storage.Memory
import Mathlib.Data.List.Dedup
import Mathlib.Data.List.Sort

/-! The file system backend, over a file system that maps paths to bytes. -/

namespace Vgi.Storage.Fs

/-- A path below the base directory, by its components. -/
abbrev Path := List String

/-- The files there are. A directory is there as long as a file is below it. -/
abbrev Files := List (Path × Bytes)

/-- `PathBuf::push`: an empty name adds no component. -/
def push (path : Path) (name : String) : Path :=
  if name = "" then path else path ++ [name]

variable (files : Files)

def read (path : Path) : Option Bytes := (files.find? (·.1 = path)).map Prod.snd

def removeFile (path : Path) : Files := files.filter (·.1 ≠ path)

def write (path : Path) (bytes : Bytes) : Files := (path, bytes) :: removeFile files path

def rename (source target : Path) : Option Files :=
  (read files source).map fun bytes => write (removeFile files source) target bytes

variable (directory : Path)

def removeDirAll : Files := files.filter fun file => ¬directory <+: file.1

/-- The names in a directory: what follows it in the paths of files. -/
def readDir : List String :=
  (files.filterMap fun file =>
    if directory <+: file.1 then file.1[directory.length]? else none).dedup

def hexDigit (value : Nat) : Char := "0123456789abcdef".toList.getD value '0'

/-- Two digits for each byte. -/
def hexByte (byte : UInt8) : List Char := [hexDigit (byte.toNat / 16), hexDigit (byte.toNat % 16)]

def hex (bytes : Bytes) : String := String.ofList (bytes.flatMap hexByte)

def padded (width value : Nat) : List Char :=
  let digits := Nat.toDigits 10 value
  List.replicate (width - digits.length) '0' ++ digits

/-- A file name `{id:020}.bin`. The sign of a negative number counts towards the width. -/
def idFile : Int → String
  | .ofNat value => String.ofList (padded 20 value ++ ".bin".toList)
  | .negSucc value => String.ofList ('-' :: padded 19 (value + 1) ++ ".bin".toList)

def parseDigits (digits : List Char) : Option Int :=
  if digits ≠ [] ∧ digits.all Char.isDigit then some (Nat.ofDigitChars 10 digits 0) else none

/-- `str::parse::<i64>`, but for its bounds. -/
def parseNumber : List Char → Option Int
  | '-' :: digits => (parseDigits digits).map (- ·)
  | '+' :: digits => parseDigits digits
  | digits => parseDigits digits

/-- The id in a file name: a number before the suffix. -/
def parseId (name : String) : Option Int :=
  if ".bin".toList <:+ name.toList then
    parseNumber (name.toList.take (name.toList.length - 4))
  else none

def scopeDir (scope : Bytes) : Path := push [] (hex scope)

def logDir (scope ns key : Bytes) : Path := push (scopeDir scope) (hex ns ++ "__" ++ hex key)

variable (scope key : Bytes)

def kvPath : Path := push (scopeDir scope) ("kv_" ++ hex key)

/-- `with_extension("tmp")` on a kv path, whose last name has no dot. -/
def kvTmpPath : Path := push (scopeDir scope) ("kv_" ++ hex key ++ ".tmp")

def queueDir (scope : Bytes) : Path := push (scopeDir scope) "__queue__"

def ids : List Int := (readDir files directory).filterMap parseId

def maxId : Int := (ids files directory).max?.getD (-1)

/-- The files, and the counter that tags the claims of this process. -/
structure Disk where
  files : Files
  seq : Nat

def Disk.empty : Disk := { files := [], seq := 0 }

def Disk.modifyFiles (change : Files → Files) : StateM Disk Unit :=
  modify fun disk => { disk with files := change disk.files }

def kvGet : StateM Disk (Option Bytes) := do
  return read (← get).files (kvPath scope key)

def kvPut (scope key value : Bytes) : StateM Disk Unit :=
  Disk.modifyFiles fun files =>
    let files := write files (kvTmpPath scope key) value
    (rename files (kvTmpPath scope key) (kvPath scope key)).getD files

def kvDel : StateM Disk Unit := Disk.modifyFiles (removeFile · (kvPath scope key))

/-- Create the first file that is not there yet, from this id on. Each attempt that fails has
met another file, so one more attempt than there are files is enough.
-/
def createNew (directory : Path) (value : Bytes) : (attempts : Nat) → Int → Files → Int × Files
  | 0, id, files => (id, files)
  | attempts + 1, id, files =>
    let path := push directory (idFile id)
    if (read files path).isSome then createNew directory value attempts (id + 1) files
    else (id, write files path value)

def append (scope ns key value : Bytes) : StateM Disk Int := do
  let disk ← get
  let directory := logDir scope ns key
  let (id, files) :=
    createNew directory value (disk.files.length + 1) (maxId disk.files directory + 1) disk.files
  set { disk with files }
  return id

/-- The loop of `append_many`, which lists the directory once. -/
def createEach (directory : Path) : List Bytes → Int → Files → List Int × Files
  | [], _, files => ([], files)
  | value :: rest, id, files =>
    let (id, files) := createNew directory value (files.length + 1) id files
    let (ids, files) := createEach directory rest (id + 1) files
    (id :: ids, files)

def appendMany (scope ns key : Bytes) (values : List Bytes) : StateM Disk (List Int) := do
  if values.isEmpty then return []
  let disk ← get
  let directory := logDir scope ns key
  let (ids, files) := createEach directory values (maxId disk.files directory + 1) disk.files
  set { disk with files }
  return ids

def scan (scope ns key : Bytes) (afterId : Int) (limit : Nat)
    : StateM Disk (List (Int × Bytes)) := do
  let files := (← get).files
  let directory := logDir scope ns key
  let sorted := ((ids files directory).filter (afterId < ·)).mergeSort
  return (sorted.take limit).filterMap fun id =>
    (read files (push directory (idFile id))).map (id, ·)

/-- Items go to consecutive ids; one whose file is there already is dropped. -/
def pushEach (directory : Path) : List Bytes → Int → Files → Files
  | [], _, files => files
  | item :: rest, id, files =>
    let path := push directory (idFile id)
    let files := if (read files path).isSome then files else write files path item
    pushEach directory rest (id + 1) files

def queuePush (scope : Bytes) (items : List Bytes) : StateM Disk Unit :=
  Disk.modifyFiles fun files =>
    pushEach (queueDir scope) items (maxId files (queueDir scope) + 1) files

/-- Claim the first file that can be renamed and read, and remove it. -/
def claim (directory : Path) (tag : String) : List Int → Files → Option Bytes × Files
  | [], files => (none, files)
  | id :: rest, files =>
    let claimed := push directory ("claimed_" ++ tag ++ "_" ++ idFile id)
    match rename files (push directory (idFile id)) claimed with
    | none => claim directory tag rest files
    | some renamed =>
      let files := removeFile renamed claimed
      match read renamed claimed with
      | some data => (some data, files)
      | none => claim directory tag rest files

/-- The claims of a process are tagged by its id and a counter that wraps. -/
def queuePop (pid : Nat) (scope : Bytes) : StateM Disk (Option Bytes) := do
  let disk ← get
  let tag := toString pid ++ "_" ++ toString disk.seq
  let directory := queueDir scope
  let (data, files) := claim directory tag (ids disk.files directory).mergeSort disk.files
  set { files, seq := (disk.seq + 1) % 2 ^ 64 : Disk }
  return data

def clear (scope : Bytes) : StateM Disk Unit := Disk.modifyFiles (removeDirAll · (scopeDir scope))

/-- Sweep the directories whose newest file is too old; `stale` reads the clock and the times
of the files.
-/
def gc (stale : (ttlSecs : Nat) → (name : String) → Bool) (ttlSecs : Nat) : StateM Disk Unit :=
  Disk.modifyFiles fun files => files.filter fun file =>
    match file.1 with
    | name :: _ :: _ => !stale ttlSecs name
    | _ => true

end Vgi.Storage.Fs

namespace Vgi.Storage

def FsStorage (pid : Nat) (stale : (ttlSecs : Nat) → (name : String) → Bool)
    : BatchStorage Fs.Disk where
  kvGet := Fs.kvGet
  kvPut := Fs.kvPut
  kvDel := Fs.kvDel
  append := Fs.append
  appendMany := Fs.appendMany
  scan := Fs.scan
  queuePush := Fs.queuePush
  queuePop := Fs.queuePop pid
  clear := Fs.clear
  gc := Fs.gc stale

end Vgi.Storage
