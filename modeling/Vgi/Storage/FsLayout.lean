import Vgi.Lib.Keyed
import Vgi.Storage.Fs

/-! Where the file system backend keeps what. The places of different entries are different
paths, a listing of a log or of a queue shows its own ids only, and a scope other than the empty
one owns the directory of its name.
-/

namespace Vgi.Storage.Fs

open List

theorem read_filter (files) (keep : Path → Bool) (path)
    : read (files.filter fun file => keep file.1) path
      = if keep path then read files path else none := by
  unfold read
  rw [Lib.find?_filter_key Prod.fst]
  split <;> rfl

@[simp] theorem read_removeFile (files removed path)
    : read (removeFile files removed) path = if path = removed then none else read files path := by
  unfold removeFile
  rw [read_filter files (· ≠ removed)]
  by_cases here : path = removed <;> simp

@[simp] theorem read_write (files written path bytes)
    : read (write files written bytes) path
      = if path = written then some bytes else read files path := by
  unfold read write removeFile
  rw [Lib.find?_replace Prod.fst files (written, bytes)]
  split <;> rfl

theorem read_removeDirAll (files directory path)
    : read (removeDirAll files directory) path
      = if directory <+: path then none else read files path := by
  unfold removeDirAll
  rw [read_filter files fun path => decide ¬directory <+: path]
  by_cases below : directory <+: path <;> simp

variable {files : Files}

theorem read_isSome {path} : (read files path).isSome = true ↔ ∃ file ∈ files, file.1 = path := by
  simp [read]

variable {name : String}

theorem mem_readDir {directory}
    : name ∈ readDir files directory
      ↔ ∃ rest, (read files (directory ++ name :: rest)).isSome = true := by
  unfold readDir
  simp only [mem_dedup, mem_filterMap, read_isSome]
  constructor
  · rintro ⟨file, member, found⟩
    split at found
    next below =>
      obtain ⟨rest, path⟩ := below
      rw [← path, getElem?_append_right (Nat.le_refl _), Nat.sub_self] at found
      obtain ⟨others, rfl⟩ : ∃ others, rest = name :: others := by
        cases rest with
        | nil => simp at found
        | cons first others => exact ⟨others, by simpa using found⟩
      exact ⟨others, file, member, path.symm⟩
    · cases found
  · rintro ⟨rest, file, member, path⟩
    refine ⟨file, member, ?_⟩
    rw [if_pos (path ▸ prefix_append ..), path]
    simp

theorem nodup_readDir (files directory) : (readDir files directory).Nodup := nodup_dedup _

def isHexChar (c : Char) : Bool := c ∈ "0123456789abcdef".toList

theorem isHexChar_hexDigit : ∀ value < 16, isHexChar (hexDigit value) = true := by
  decide

theorem hexDigit_injective : ∀ value < 16, ∀ other < 16, hexDigit value = hexDigit other →
    value = other := by
  decide

theorem isHexChar_hex (bytes) : (hex bytes).toList.all isHexChar = true := by
  rw [hex, String.toList_ofList, all_eq_true]
  intro c member
  obtain ⟨byte, _, member⟩ := mem_flatMap.mp member
  have small := byte.toNat_lt
  rcases mem_pair.mp member with rfl | rfl
  · exact isHexChar_hexDigit _ (by omega)
  · exact isHexChar_hexDigit _ (by omega)

theorem hexByte_injective {byte other} (same : hexByte byte = hexByte other) : byte = other := by
  have lists : [hexDigit (byte.toNat / 16), hexDigit (byte.toNat % 16)]
      = [hexDigit (other.toNat / 16), hexDigit (other.toNat % 16)] := same
  simp only [cons.injEq, and_true] at lists
  have small := byte.toNat_lt
  have smallOther := other.toNat_lt
  have high := hexDigit_injective _ (by omega) _ (by omega) lists.1
  have low := hexDigit_injective _ (by omega) _ (by omega) lists.2
  exact UInt8.toNat_inj.mp (by omega)

variable {bytes other : Bytes}

theorem hex_injective (same : hex bytes = hex other) : bytes = other := by
  have lists : bytes.flatMap hexByte = other.flatMap hexByte := by
    simpa [hex] using congrArg String.toList same
  clear same
  induction bytes generalizing other with
  | nil =>
    cases other with
    | nil => rfl
    | cons byte rest => cases lists
  | cons byte bytes ih =>
    cases other with
    | nil => cases lists
    | cons next rest =>
      obtain ⟨first, later⟩ := append_inj lists rfl
      rw [hexByte_injective first, ih later]

theorem hex_eq_empty : hex bytes = "" ↔ bytes = [] :=
  ⟨fun empty => hex_injective (empty.trans (by rfl : "" = hex [])), fun empty => by rw [empty]; rfl⟩

theorem parseNumber_digits {digits} (isDigits : digits.all Char.isDigit = true)
    : parseNumber digits = parseDigits digits := by
  unfold parseNumber
  split
  · simp at isDigits
  · simp at isDigits
  · rfl

theorem padded_digits (width value) : (padded width value).all Char.isDigit = true := by
  rw [all_eq_true]
  intro c member
  rcases mem_append.mp member with zero | digit
  · rw [eq_of_mem_replicate zero]
    rfl
  · exact Nat.isDigit_of_mem_toDigits (by decide) (by decide) digit

theorem parseDigits_padded (width value)
    : parseDigits (padded width value) = some (value : Int) := by
  have nonempty : padded width value ≠ [] := by simp [padded]
  have read : Nat.ofDigitChars 10 (padded width value) 0 = value := by
    simp [padded, Nat.ofDigitChars_append]
  rw [parseDigits, if_pos ⟨nonempty, padded_digits width value⟩, read]

/-- A file name is read back as its id. -/
theorem parseId_idFile (value : Nat) : parseId (idFile value) = some (value : Int) := by
  have chars : (idFile value).toList = padded 20 value ++ ".bin".toList := by
    simp [idFile]
  rw [parseId, chars, if_pos (suffix_append ..), length_append]
  have number : (padded 20 value ++ ".bin".toList).take
      ((padded 20 value).length + ".bin".toList.length - 4) = padded 20 value :=
    take_left
  rw [number, parseNumber_digits (padded_digits 20 value), parseDigits_padded]

theorem idFile_injective {value other : Nat} (same : idFile value = idFile other)
    : value = other := by
  have parsed := congrArg parseId same
  rw [parseId_idFile, parseId_idFile, Option.some.injEq] at parsed
  exact Int.ofNat.inj parsed

/-- What the backend keeps in files of its own. -/
inductive Place where
  | kv (scope key : Bytes)
  | log (scope ns key : Bytes) (id : Nat)
  | queue (scope : Bytes) (id : Nat)
deriving DecidableEq

namespace Place

def scope : Place → Bytes
  | kv scope _ => scope
  | log scope _ _ _ => scope
  | queue scope _ => scope

/-- The names below the directory of the scope. -/
def names : Place → Path
  | kv _ key => ["kv_" ++ hex key]
  | log _ ns key id => [hex ns ++ "__" ++ hex key, idFile id]
  | queue _ id => ["__queue__", idFile id]

def path (place : Place) : Path := scopeDir place.scope ++ place.names

end Place

variable (scope : Bytes)

theorem scopeDir_eq : scopeDir scope = if scope = [] then [] else [hex scope] := by
  simp only [scopeDir, push, hex_eq_empty, nil_append]

theorem scopeDir_injective {scope} (same : scopeDir scope = scopeDir other) : scope = other := by
  rw [scopeDir_eq, scopeDir_eq] at same
  split at same
  · split at same
    · simp [*]
    · cases same
  · split at same
    · cases same
    · exact hex_injective (cons.inj same).1

theorem push_nonempty (path c) (member : c ∈ name.toList) : push path name = path ++ [name] := by
  refine if_neg fun empty => ?_
  rw [empty] at member
  cases member

theorem kvPath_eq (key) : kvPath scope key = (Place.kv scope key).path :=
  push_nonempty _ 'k' (by simp)

theorem logDir_eq (ns key)
    : logDir scope ns key = scopeDir scope ++ [hex ns ++ "__" ++ hex key] :=
  push_nonempty _ '_' (by simp)

theorem queueDir_eq : queueDir scope = scopeDir scope ++ ["__queue__"] :=
  push_nonempty _ 'q' (by simp)

theorem push_idFile (directory) (id : Nat)
    : push directory (idFile id) = directory ++ [idFile id] :=
  push_nonempty _ 'b' (by simp [idFile])

theorem logFile_eq (ns key) (id : Nat)
    : push (logDir scope ns key) (idFile id) = (Place.log scope ns key id).path := by
  rw [push_idFile, logDir_eq, append_assoc]
  rfl

theorem queueFile_eq (id : Nat)
    : push (queueDir scope) (idFile id) = (Place.queue scope id).path := by
  rw [push_idFile, queueDir_eq, append_assoc]
  rfl

/-- The name is made of hex digits, as those of scope directories are. -/
def isHex (name : String) : Bool := name.toList.all isHexChar

theorem isHex_hex (bytes) : isHex (hex bytes) = true := isHexChar_hex bytes

theorem isHex_eq_false (c) (member : c ∈ name.toList) (other : isHexChar c = false)
    : isHex name = false := by
  rw [isHex, all_eq_false]
  exact ⟨c, member, by simp [other]⟩

/-- A path below a scope's directory splits at the first name that is no scope. -/
theorem splitPath (rest : Path) (other : isHex name = false)
    : (scopeDir scope ++ name :: rest).takeWhile isHex = scopeDir scope
      ∧ (scopeDir scope ++ name :: rest).dropWhile isHex = name :: rest := by
  have directory : ∀ name ∈ scopeDir scope, isHex name = true := by
    intro name member
    rw [scopeDir_eq] at member
    split at member
    · cases member
    · rw [mem_singleton.mp member]
      exact isHex_hex _
  rw [takeWhile_append_of_pos directory, dropWhile_append_of_pos directory]
  simp [other]

theorem isHex_kvName (key) : isHex ("kv_" ++ hex key) = false := isHex_eq_false 'k' (by simp) rfl

theorem isHex_logName (ns key) : isHex (hex ns ++ "__" ++ hex key) = false :=
  isHex_eq_false '_' (by simp) rfl

theorem isHex_queueName : isHex "__queue__" = false := isHex_eq_false 'q' (by simp) rfl

namespace Place

theorem names_cases (place : Place)
    : ∃ name rest, place.names = name :: rest ∧ isHex name = false := by
  cases place with
  | kv _ key => exact ⟨_, _, rfl, isHex_kvName key⟩
  | log _ ns key id => exact ⟨_, _, rfl, isHex_logName ns key⟩
  | queue _ id => exact ⟨_, _, rfl, isHex_queueName⟩

variable {place : Place} {rest : Path} {ns key : Bytes}

/-- A path below a scope's directory belongs to a place of that scope with these names. -/
theorem path_eq {scope} (other : isHex name = false)
    (same : place.path = scopeDir scope ++ name :: rest)
    : place.scope = scope ∧ place.names = name :: rest := by
  obtain ⟨first, later, names, notHex⟩ := place.names_cases
  have mine := splitPath place.scope later notHex
  have theirs := splitPath scope rest other
  rw [← names] at mine
  change place.path.takeWhile isHex = _ ∧ place.path.dropWhile isHex = _ at mine
  rw [same, theirs.1, theirs.2] at mine
  exact ⟨(scopeDir_injective mine.1).symm, mine.2.symm⟩

theorem hexChar_ne {c} (other : isHexChar c = false)
    : c ∉ (hex bytes).toList := fun member => by
  rw [all_eq_true.mp (isHexChar_hex bytes) c member] at other
  cases other

theorem logName_injective {ns' key'}
    (same : hex ns ++ "__" ++ hex key = hex ns' ++ "__" ++ hex key') : ns = ns' ∧ key = key' := by
  have chars : (hex ns).toList ++ '_' :: '_' :: (hex key).toList
      = (hex ns').toList ++ '_' :: '_' :: (hex key').toList := by
    simpa using congrArg String.toList same
  have split : ∀ ns key : Bytes,
      ((hex ns).toList ++ '_' :: '_' :: (hex key).toList).takeWhile isHexChar = (hex ns).toList
      ∧ ((hex ns).toList ++ '_' :: '_' :: (hex key).toList).dropWhile isHexChar
        = '_' :: '_' :: (hex key).toList := by
    intro ns key
    have digits := all_eq_true.mp (isHexChar_hex ns)
    rw [takeWhile_append_of_pos digits, dropWhile_append_of_pos digits]
    simp [show isHexChar '_' = false from rfl]
  have first := split ns key
  rw [chars, (split ns' key').1, (split ns' key').2] at first
  refine ⟨hex_injective (String.toList_inj.mp first.1.symm), ?_⟩
  simp only [cons.injEq, true_and] at first
  exact hex_injective (String.toList_inj.mp first.2.symm)

theorem logName_ne_queue : hex ns ++ "__" ++ hex key ≠ "__queue__" := by
  intro same
  have member : 'q' ∈ (hex ns ++ "__" ++ hex key).toList := by
    rw [same]
    decide
  simp [hexChar_ne (show isHexChar 'q' = false from rfl)] at member

theorem path_injective {other} (same : place.path = other.path) : place = other := by
  obtain ⟨name, rest, names, notHex⟩ := other.names_cases
  have both := path_eq notHex (same.trans (by rw [← names]; rfl))
  rw [← names] at both
  obtain ⟨scope, names⟩ := both
  cases place with
  | kv s k =>
    cases other with
    | kv s' k' =>
      cases scope
      have key := String.append_right_inj _ |>.mp (cons.inj names).1
      rw [hex_injective key]
    | log | queue => cases (cons.inj names).2
  | log s ns k id =>
    cases other with
    | kv => cases (cons.inj names).2
    | log s' ns' k' id' =>
      cases scope
      obtain ⟨rfl, rfl⟩ := logName_injective (cons.inj names).1
      rw [idFile_injective (cons.inj (cons.inj names).2).1]
    | queue => exact absurd (cons.inj names).1 logName_ne_queue
  | queue s id =>
    cases other with
    | kv => cases (cons.inj names).2
    | log => exact absurd (cons.inj names).1.symm logName_ne_queue
    | queue s' id' =>
      cases scope
      rw [idFile_injective (cons.inj (cons.inj names).2).1]

/-- Below the directory of a log are its own files. -/
theorem below_logDir {scope} (below : place.path = logDir scope ns key ++ name :: rest)
    : ∃ id, place = .log scope ns key id ∧ name = idFile id := by
  rw [logDir_eq, append_assoc] at below
  obtain ⟨rfl, names⟩ := path_eq (isHex_logName ns key) below
  cases place with
  | kv => cases (cons.inj names).2
  | log s ns' key' id =>
    obtain ⟨rfl, rfl⟩ := logName_injective (cons.inj names).1
    exact ⟨id, rfl, (cons.inj (cons.inj names).2).1.symm⟩
  | queue => exact absurd (cons.inj names).1.symm logName_ne_queue

theorem below_queueDir {scope} (below : place.path = queueDir scope ++ name :: rest)
    : ∃ id, place = .queue scope id ∧ name = idFile id := by
  rw [queueDir_eq, append_assoc] at below
  obtain ⟨rfl, names⟩ := path_eq isHex_queueName below
  cases place with
  | kv => cases (cons.inj names).2
  | log => exact absurd (cons.inj names).1 logName_ne_queue
  | queue s id => exact ⟨id, rfl, (cons.inj (cons.inj names).2).1.symm⟩

/-- A scope that is not empty owns the directory of its name. -/
theorem below_scopeDir {scope} (named : scope ≠ [])
    : scopeDir scope <+: place.path ↔ place.scope = scope := by
  constructor
  · rintro ⟨rest, below⟩
    obtain ⟨name, later, names, notHex⟩ := place.names_cases
    have mine := (splitPath place.scope later notHex).1
    rw [← names] at mine
    change place.path.takeWhile isHex = _ at mine
    rw [← below, scopeDir_eq scope, if_neg named, singleton_append, takeWhile_cons,
      if_pos (isHex_hex scope)] at mine
    rw [scopeDir_eq place.scope] at mine
    split at mine
    · cases mine
    · exact hex_injective (cons.inj mine).1.symm
  · rintro rfl
    exact prefix_append ..

theorem ne_kvTmpPath (place : Place) (scope key) : place.path ≠ kvTmpPath scope key := by
  intro same
  have notHex : isHex ("kv_" ++ hex key ++ ".tmp") = false := isHex_eq_false 'k' (by simp) rfl
  obtain ⟨_, names⟩ := path_eq notHex same
  cases place with
  | kv s k =>
    have member : '.' ∈ ("kv_" ++ hex k).toList := by
      rw [(cons.inj names).1]
      simp
    simp [hexChar_ne (show isHexChar '.' = false from rfl)] at member
  | log | queue => cases (cons.inj names).2

/-- A claimed item is in no place: the names of ids have digits only before their suffix. -/
theorem ne_claimed (place : Place) (scope tag id)
    : place.path ≠ push (queueDir scope) ("claimed_" ++ tag ++ "_" ++ idFile id) := by
  intro same
  obtain ⟨value, _, name⟩ := below_queueDir same
  have member : 'c' ∈ (idFile value).toList := by
    rw [← name]
    simp
  rw [show (idFile value).toList = padded 20 value ++ ".bin".toList by simp [idFile]] at member
  rcases mem_append.mp member with digit | suffix
  · exact absurd (all_eq_true.mp (padded_digits 20 value) _ digit) (by decide)
  · exact absurd suffix (by decide)

end Place

end Vgi.Storage.Fs
