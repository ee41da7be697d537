import Vgi.Storage.FsLayout
import Vgi.Storage.Ideal

/-! The file system backend answers as the in-process one does, as long as the empty scope, whose
directory is that of all scopes, is cleared only while nothing else is kept.
-/

namespace Vgi.Storage.Fs

open Lib Function Place List Ideal

/-- The files are those of the places with contents. -/
structure Stores (files : Files) (contents : Place → Option Bytes) : Prop where
  reads : ∀ place, read files place.path = contents place
  owned : ∀ path, (read files path).isSome = true → ∃ place : Place, path = place.path

namespace Stores

variable {files : Files} {contents : Place → Option Bytes} (stores : Stores files contents)

include stores

/-- A path that no place has is not in use. -/
theorem unowned {path} (none : ∀ place : Place, place.path ≠ path) : read files path = .none := by
  by_contra some
  obtain ⟨place, here⟩ := stores.owned path (Option.isSome_iff_ne_none.mpr some)
  exact none place here.symm

theorem of_reads {other}
    (same : ∀ path, read other path = read files path) : Stores other contents where
  reads := fun place => (same place.path).trans (stores.reads place)
  owned := fun path some => stores.owned path (same path ▸ some)

theorem of_contents {other}
    (same : ∀ place, contents place = other place) : Stores files other where
  reads := fun place => (stores.reads place).trans (same place)
  owned := stores.owned

/-- The file of one place is changed. -/
theorem set {after value} (place)
    (is : ∀ path, read after path = if path = place.path then value else read files path)
    : Stores after (update contents place value) where
  reads := by
    intro other
    by_cases here : other = place
    · simp [here, is]
    · have apart : other.path ≠ place.path := fun same => here (path_injective same)
      simp [here, apart, is, stores.reads]
  owned := by
    intro path some
    rw [is] at some
    split at some
    · exact ⟨place, by assumption⟩
    · exact stores.owned path some

theorem write (place bytes)
    : Stores (write files place.path bytes) (update contents place (some bytes)) :=
  stores.set place fun path => read_write _ _ path _

theorem remove (place)
    : Stores (removeFile files place.path) (update contents place none) :=
  stores.set place (read_removeFile _ _)

variable {scope : Bytes}

/-- Clearing a scope that is not empty drops its places. -/
theorem clear (named : scope ≠ [])
    : Stores (removeDirAll files (scopeDir scope))
        (fun place => if place.scope = scope then none else contents place) where
  reads := by
    intro place
    simp only [read_removeDirAll, below_scopeDir named, stores.reads]
  owned := by
    intro path some
    rw [read_removeDirAll] at some
    split at some
    · cases some
    · exact stores.owned path some

omit stores in
/-- Clearing the empty scope drops everything. -/
theorem clearAll (files)
    : Stores (removeDirAll files (scopeDir [])) (fun _ => none) where
  reads := by
    intro place
    rw [read_removeDirAll, if_pos (by rw [scopeDir_eq, if_pos rfl]; exact nil_prefix)]
  owned := by
    intro path some
    rw [read_removeDirAll, if_pos (by rw [scopeDir_eq, if_pos rfl]; exact nil_prefix)] at some
    cases some

/-- A value goes to its file by way of a temporary one. -/
theorem kvPut (scope key value)
    : Stores
        ((rename (Fs.write files (kvTmpPath scope key) value) (kvTmpPath scope key)
            (kvPath scope key)).getD (Fs.write files (kvTmpPath scope key) value))
        (update contents (.kv scope key) (some value)) := by
  refine (stores.write (.kv scope key) value).of_reads fun path => ?_
  have unused := stores.unowned fun place => place.ne_kvTmpPath scope key
  simp only [rename, kvPath_eq]
  by_cases target : path = (kv scope key).path
  · simp [target]
  · by_cases temporary : path = kvTmpPath scope key
    · simp [temporary, unused]
    · simp [temporary]

variable {name : String}

/-- A directory lists the places that are below it. -/
theorem mem_readDir_iff {dir} {numbered : Nat → Place}
    (below : ∀ {place : Place} {name rest}, place.path = dir ++ name :: rest →
      ∃ id : Nat, place = numbered id ∧ name = idFile id)
    (file : ∀ id : Nat, push dir (idFile id) = (numbered id).path)
    : name ∈ readDir files dir
      ↔ ∃ id : Nat, (contents (numbered id)).isSome = true ∧ name = idFile id := by
  rw [mem_readDir]
  constructor
  · rintro ⟨rest, some⟩
    obtain ⟨place, here⟩ := stores.owned _ some
    obtain ⟨id, rfl, named⟩ := below here.symm
    rw [here, stores.reads] at some
    exact ⟨id, some, named⟩
  · rintro ⟨id, some, rfl⟩
    refine ⟨[], ?_⟩
    rw [← push_idFile, file, stores.reads]
    exact some

end Stores

def span (first count : Nat) : List Int := (range' first count).map fun id : Nat => (id : Int)

/-- The directory has the files of these ids and no others. -/
def Lists (files : Files) (directory : Path) (first count : Nat) : Prop :=
  ∀ name, name ∈ readDir files directory
    ↔ ∃ id, (first ≤ id ∧ id < first + count) ∧ name = idFile id

namespace Lists

variable {files : Files} {directory : Path} {first count : Nat}
  (lists : Lists files directory first count)

include lists

theorem ids_perm : (ids files directory).Perm (span first count) := by
  have names : (readDir files directory).Perm
      ((range' first count).map fun id : Nat => idFile id) := by
    refine (perm_ext_iff_of_nodup (nodup_readDir ..) ?_).mpr fun name => ?_
    · exact (nodup_range' ..).map fun _ _ same => idFile_injective same
    · rw [lists name, mem_map]
      simp [eq_comm]
  refine (names.filterMap parseId).trans (.of_eq ?_)
  rw [filterMap_map, span, ← filterMap_eq_map]
  refine filterMap_congr fun id _ => ?_
  rw [comp_apply, parseId_idFile, comp_apply]

omit lists in
theorem span_increasing (first count : Nat) : (span first count).Pairwise (· < ·) :=
  pairwise_map.mpr ((pairwise_lt_range' ..).imp fun less => Int.ofNat_lt.mpr less)

/-- Sorting the listing, or a part of it, gives the ids in order. -/
theorem mergeSort_filter (keep)
    : ((ids files directory).filter keep).mergeSort = (span first count).filter keep := by
  have ordered : (span first count).Pairwise (· ≤ ·) :=
    (span_increasing first count).imp fun less => le_of_lt less
  exact Perm.eq_of_pairwise (fun _ _ _ _ => le_antisymm)
    (pairwise_mergeSort' (· ≤ ·) _) (ordered.filter _)
    ((mergeSort_perm _ _).trans (lists.ids_perm.filter keep))

theorem maxId_eq
    : maxId files directory = if count = 0 then -1 else ((first + count - 1 : Nat) : Int) := by
  have members : ∀ id : Int, id ∈ ids files directory
      ↔ ∃ value, (first ≤ value ∧ value < first + count) ∧ value = id := by
    intro id
    rw [lists.ids_perm.mem_iff, span, mem_map]
    simp
  unfold maxId
  split
  · have none : ids files directory = [] :=
      eq_nil_iff_forall_not_mem.mpr fun id member => by
        obtain ⟨value, inside, _⟩ := (members id).mp member
        omega
    rw [none]
    rfl
  · have last : (ids files directory).max? = some ((first + count - 1 : Nat) : Int) := by
      rw [max?_eq_some_iff]
      refine ⟨(members _).mpr ⟨_, by omega, rfl⟩, fun id member => ?_⟩
      obtain ⟨value, inside, rfl⟩ := (members id).mp member
      omega
    rw [last]
    rfl

end Lists

/-- The files of an ideal store: logs from id 0 on, each queue from some id on. -/
@[simp]
def contents (ideal : Ideal) (first : Bytes → Nat) : Place → Option Bytes
  | .kv scope key => ideal.kv (scope, key)
  | .log scope ns key id => (ideal.log (scope, ns, key))[id]?
  | .queue scope id =>
    if id < first scope then none else (ideal.queue scope)[id - first scope]?

/-- The disk has the files of the ideal store, and ids were given out from 0 on. -/
structure Keeps (client : Client Disk) (ideal : Ideal) : Prop where
  files : ∃ first, Stores client.store.files (contents ideal first)
  issued : ∀ log, client.issued log = span 0 (ideal.log log).length

def start : Client Disk where
  store := .empty
  issued := fun _ => []

theorem Keeps.start : Keeps start .empty where
  files := ⟨fun _ => 0, ⟨by
    intro place
    cases place <;> simp [empty, Fs.start, Disk.empty, read], by
    simp [Fs.start, Disk.empty, read]⟩⟩
  issued := fun _ => rfl

section

variable {files : Files} {ideal : Ideal} {first : Bytes → Nat}
  (stores : Stores files (contents ideal first))

include stores

theorem lists_log (scope ns key)
    : Lists files (logDir scope ns key) 0 (ideal.log (scope, ns, key)).length := by
  intro name
  rw [stores.mem_readDir_iff below_logDir (logFile_eq _ _ _)]
  simp

theorem lists_queue (scope)
    : Lists files (queueDir scope) (first scope) (ideal.queue scope).length := by
  intro name
  rw [stores.mem_readDir_iff below_queueDir (queueFile_eq _)]
  refine exists_congr fun id => and_congr_left fun _ => ?_
  simp only [contents]
  split
  · simp
    omega
  · simp
    omega

/-- The next id of a log is its length. -/
theorem nextId_log (scope ns key)
    : maxId files (logDir scope ns key) + 1 = ((ideal.log (scope, ns, key)).length) := by
  rw [(lists_log stores scope ns key).maxId_eq]
  split <;> omega

omit stores in
/-- A new file goes where none is, at the first attempt. -/
theorem createNew_eq {contents} (stores : Stores files contents)
    (scope ns key value) (attempts id : Nat) (free : contents (.log scope ns key id) = none)
    : createNew (logDir scope ns key) value (attempts + 1) id files
      = ((id : Int), write files (log scope ns key id).path value) := by
  have absent : (read files (log scope ns key id).path).isSome = false := by
    rw [stores.reads, free]
    rfl
  simp only [createNew, logFile_eq, absent, Bool.false_eq_true, if_false]

/-- A file at the end of a log. -/
theorem Stores.append (scope ns key value)
    : Stores
        (Fs.write files (log scope ns key (ideal.log (scope, ns, key)).length).path value)
        (contents (ideal.appendLog (scope, ns, key) [value]) first) := by
  refine (stores.write _ value).of_contents fun place => ?_
  cases place with
  | kv | queue => simp
  | log s n k id =>
    by_cases here : (s, n, k) = (scope, ns, key)
    · cases here
      simp only [update_apply, log.injEq, true_and, contents, appendLog]
      split
      next last => simp [last]
      next other =>
        rcases lt_or_gt_of_ne other with before | after
        · simp [getElem?_append_left before]
        · simp [le_of_lt after]
          omega
    · have apart : log s n k id ≠ .log scope ns key (ideal.log (scope, ns, key)).length := by
        intro same
        cases same
        exact here rfl
      simp [here, apart]

/-- Files created one after the other take consecutive ids, by induction on the values. -/
theorem createEach_eq (scope ns key values)
    : let run := createEach (logDir scope ns key) values (ideal.log (scope, ns, key)).length files
      run.1 = span (ideal.log (scope, ns, key)).length values.length
      ∧ Stores run.2 (contents (ideal.appendLog (scope, ns, key) values) first) := by
  induction values generalizing ideal files with
  | nil =>
    refine ⟨rfl, ?_⟩
    have same : ideal.appendLog (scope, ns, key) [] = ideal := by simp
    rw [same]
    exact stores
  | cons value rest ih =>
    have free : contents ideal first (.log scope ns key (ideal.log (scope, ns, key)).length)
        = none := by simp
    have created := createNew_eq stores scope ns key value files.length _ free
    have next := stores.append scope ns key value
    obtain ⟨ids, later⟩ := ih next
    have long : ((ideal.appendLog (scope, ns, key) [value]).log (scope, ns, key)).length
        = (ideal.log (scope, ns, key)).length + 1 := by simp
    have both : (ideal.appendLog (scope, ns, key) [value]).appendLog (scope, ns, key) rest
        = ideal.appendLog (scope, ns, key) (value :: rest) := by simp
    rw [long, Int.natCast_add, Int.natCast_one] at ids later
    rw [both] at later
    simp only [createEach, created]
    exact ⟨by rw [ids]; rfl, later⟩

@[simp]
def withQueue (ideal : Ideal) (scope : Bytes) (items : List Bytes) : Ideal :=
  { ideal with queue := update ideal.queue scope items }

/-- A file at the end of a queue. -/
theorem Stores.push (scope item)
    : Stores
        (Fs.write files (queue scope (first scope + (ideal.queue scope).length)).path item)
        (contents (withQueue ideal scope (ideal.queue scope ++ [item])) first) := by
  refine (stores.write _ item).of_contents fun place => ?_
  cases place with
  | kv | log => simp
  | queue s id =>
    by_cases here : s = scope
    · subst here
      simp only [update_apply, queue.injEq, true_and, contents, withQueue, if_true]
      split
      next last => simp [last]
      next other =>
        split
        · rfl
        · rcases lt_or_gt_of_ne other with before | after
          · rw [getElem?_append_left (by omega)]
          · rw [getElem?_append_right (by omega), getElem?_eq_none (by omega),
              getElem?_eq_none (by simp; omega)]
    · have apart : queue s id ≠ .queue scope (first scope + (ideal.queue scope).length) := by
        intro same
        cases same
        exact here rfl
      simp [here]

/-- Items pushed one after the other, by induction on the items. -/
theorem pushEach_stores (scope items)
    : Stores
        (pushEach (queueDir scope) items ((first scope + (ideal.queue scope).length : Nat)) files)
        (contents (withQueue ideal scope (ideal.queue scope ++ items)) first) := by
  induction items generalizing ideal files with
  | nil =>
    have same : withQueue ideal scope (ideal.queue scope ++ []) = ideal := by simp
    rw [same]
    exact stores
  | cons item rest ih =>
    have absent : (read files
        (queue scope (first scope + (ideal.queue scope).length)).path).isSome = false := by
      rw [stores.reads]
      simp
    have later := ih (stores.push scope item)
    have long : first scope
          + ((withQueue ideal scope (ideal.queue scope ++ [item])).queue scope).length
        = first scope + (ideal.queue scope).length + 1 := by
      simp
      omega
    have both : withQueue (withQueue ideal scope (ideal.queue scope ++ [item])) scope
          ((withQueue ideal scope (ideal.queue scope ++ [item])).queue scope ++ rest)
        = withQueue ideal scope (ideal.queue scope ++ item :: rest) := by simp
    rw [long, Int.natCast_add, Int.natCast_one, both] at later
    simp only [pushEach, queueFile_eq, absent]
    exact later

variable {scope : Bytes}

/-- A queue without items may start anywhere. -/
theorem Stores.restart (none : ideal.queue scope = []) (start)
    : Stores files (contents ideal (update first scope start)) := by
  refine stores.of_contents fun place => ?_
  cases place with
  | kv | log => rfl
  | queue s id =>
    by_cases here : s = scope
    · subst here
      simp [none]
    · simp [here]

/-- The next id of a queue follows its last item. -/
theorem nextId_queue (scope)
    : ∃ first, Stores files (contents ideal first)
      ∧ maxId files (queueDir scope) + 1 = ((first scope + (ideal.queue scope).length : Nat)) := by
  have last := (lists_queue stores scope).maxId_eq
  by_cases empty : ideal.queue scope = []
  · refine ⟨_, stores.restart empty 0, ?_⟩
    rw [last]
    simp [empty]
  · have nonempty : (ideal.queue scope).length ≠ 0 := by simpa using empty
    refine ⟨first, stores, ?_⟩
    omega

omit stores

/-- Without its first file, a queue holds the other items and starts one id later. -/
theorem contents_pop {item rest} (waiting : ideal.queue scope = item :: rest) (place)
    : update (contents ideal first) (.queue scope (first scope)) none place
      = contents (withQueue ideal scope rest) (update first scope (first scope + 1))
          place := by
  cases place with
  | kv | log => simp
  | queue s id =>
    by_cases here : s = scope
    · subst here
      rcases lt_trichotomy id (first s) with before | rfl | after
      · have apart : id ≠ first s := by omega
        simp [apart, before, Nat.lt_succ_of_lt before]
      · simp
      · obtain ⟨later, rfl⟩ := Nat.exists_eq_add_of_lt after
        have apart : first s + later + 1 ≠ first s := by omega
        have inside : first s + later + 1 - first s = later + 1 := by omega
        have insideRest : first s + later + 1 - (first s + 1) = later := by omega
        simp [apart, waiting, inside, show ¬first s + later + 1 < first s by omega]
    · have apart : queue s id ≠ .queue scope (first scope) := by
        intro same
        cases same
        exact here rfl
      simp [here]

/-- The first item is claimed and its file is gone. -/
theorem claim_stores (stores : Stores files (contents ideal first)) (scope tag)
    : let run := claim (queueDir scope) tag (ids files (queueDir scope)).mergeSort files
      run.1 = (ideal.queue scope).head?
      ∧ ∃ first, Stores run.2
        (contents (withQueue ideal scope (ideal.queue scope).tail) first) := by
  have sorted := (lists_queue stores scope).mergeSort_filter fun _ => true
  simp only [filter_true] at sorted
  rw [sorted]
  cases waiting : ideal.queue scope with
  | nil =>
    have same : withQueue ideal scope [].tail = ideal := by
      rw [tail_nil, ← waiting]
      simp
    exact ⟨rfl, first, by rw [same]; exact stores⟩
  | cons item rest =>
    have found : read files (queue scope (first scope)).path = some item := by
      rw [stores.reads]
      simp [waiting]
    have unused := stores.unowned fun place => place.ne_claimed scope tag (first scope : Nat)
    have path := queueFile_eq scope (first scope)
    have head : span (first scope) (item :: rest).length
        = (first scope : Int) :: span (first scope + 1) rest.length := rfl
    simp only [head, claim, path, rename, found, Option.map_some, read_write, if_true]
    refine ⟨rfl, update first scope (first scope + 1), ?_⟩
    have removed : Stores (removeFile files (queue scope (first scope)).path) _ := stores.remove _
    refine (removed.of_contents fun place => ?_).of_reads fun path => ?_
    · exact contents_pop waiting place
    · rw [read_removeFile, read_write]
      split
      next claimed =>
        rw [read_removeFile, claimed, unused]
        simp
      · rfl

end

/-- The empty scope is cleared only while no other scope has anything. -/
def Separate (call : Call) (ideal : Ideal) : Prop :=
  call = .clear [] → ∀ scope, scope ≠ [] →
    (∀ key, ideal.kv (scope, key) = none) ∧ (∀ ns key, ideal.log (scope, ns, key) = [])
    ∧ ideal.queue scope = []

section

variable {client : Client Disk} {ideal : Ideal} (keeps : Keeps client ideal)

include keeps

theorem Keeps.view (log)
    : View (client.issued log) (ideal.log log) ((client.issued log).zip (ideal.log log)) := by
  have issued := keeps.issued log
  have long : (client.issued log).length = (ideal.log log).length := by simp [issued, span]
  refine ⟨map_fst_zip (by omega), map_snd_zip (by omega), ?_, ?_⟩
  · rw [issued]
    exact Lists.span_increasing ..
  · intro id member
    rw [issued, span] at member
    obtain ⟨value, _, rfl⟩ := mem_map.mp member
    exact Int.natCast_nonneg value

variable {first : Bytes → Nat}

/-- Values appended to a log, under the ids that follow. -/
theorem Keeps.append (disk) {scope ns key values}
    (stores : Stores disk.files (contents (ideal.appendLog (scope, ns, key) values) first))
    : (client.give disk (scope, ns, key)
          (span (ideal.log (scope, ns, key)).length values.length)).1
        = .positions ((range' (ideal.log (scope, ns, key)).length values.length).map some)
      ∧ Keeps
          (client.give disk (scope, ns, key)
            (span (ideal.log (scope, ns, key)).length values.length)).2
          (ideal.appendLog (scope, ns, key) values) := by
  have both : client.issued (scope, ns, key)
        ++ span (ideal.log (scope, ns, key)).length values.length
      = span 0 ((ideal.log (scope, ns, key)).length + values.length) := by
    have joined := @range'_append_1 0 (ideal.log (scope, ns, key)).length values.length
    rw [Nat.zero_add] at joined
    rw [keeps.issued, span, span, ← map_append, joined, span]
  refine ⟨?_, ⟨first, stores⟩, fun log => ?_⟩
  · have given := client.give_positions disk (scope, ns, key)
      (by rw [both]; exact Lists.span_increasing ..)
    rw [given, keeps.issued]
    simp [span]
  · by_cases here : log = (scope, ns, key)
    · subst here
      simp [both]
    · simp [here, keeps.issued]

omit keeps

theorem contents_kv (ideal first scope key value place)
    : update (contents ideal first) (.kv scope key) value place
      = contents { ideal with kv := update ideal.kv (scope, key) value } first place := by
  cases place with
  | kv s k =>
    by_cases here : (s, k) = (scope, key)
    · cases here
      simp
    · have apart : kv s k ≠ .kv scope key := by
        intro same
        cases same
        exact here rfl
      simp [here, apart]
  | log | queue => simp

theorem append_eq (disk scope ns key value)
    : append scope ns key value disk
      = let run := createNew (logDir scope ns key) value (disk.files.length + 1)
          (maxId disk.files (logDir scope ns key) + 1) disk.files
        (run.1, { disk with files := run.2 }) := rfl

theorem appendMany_eq (disk scope ns key values)
    : appendMany scope ns key values disk
      = let run := createEach (logDir scope ns key) values
          (maxId disk.files (logDir scope ns key) + 1) disk.files
        (run.1, { disk with files := run.2 }) := by
  cases values <;> rfl

/-- A scan reads the files of the ids above the cursor, in their order. -/
theorem scan_eq {disk}
    (stores : Stores disk.files (contents ideal first)) (scope ns key afterId limit)
    : scan scope ns key afterId limit disk
      = ((((span 0 (ideal.log (scope, ns, key)).length).zip (ideal.log (scope, ns, key))).filter
          fun entry => afterId < entry.1).take limit, disk) := by
  have sorted := (lists_log stores scope ns key).mergeSort_filter (afterId < ·)
  have ids : span 0 (ideal.log (scope, ns, key)).length
      = ((span 0 (ideal.log (scope, ns, key)).length).zip (ideal.log (scope, ns, key))).map
          Prod.fst :=
    (map_fst_zip (by simp [span])).symm
  have page : scan scope ns key afterId limit disk
      = ((((Fs.ids disk.files (logDir scope ns key)).filter (afterId < ·)).mergeSort.take
          limit).filterMap fun id =>
            (read disk.files (push (logDir scope ns key) (idFile id))).map (id, ·), disk) := rfl
  rw [page, sorted]
  nth_rewrite 1 [ids]
  rw [filter_map, ← map_take, filterMap_map]
  refine Prod.ext ((filterMap_congr fun entry member => ?_).trans filterMap_some) rfl
  obtain ⟨position, here⟩ := getElem?_of_mem (mem_of_mem_filter (mem_of_mem_take member))
  obtain ⟨id, value⟩ := getElem?_zip_eq_some.mp here
  have number : entry.1 = position := by
    obtain ⟨_, same⟩ := List.getElem?_eq_some_iff.mp id
    simpa [span] using same.symm
  rw [comp_apply, number, logFile_eq, stores.reads]
  simp [value, ← number]

theorem contents_clear (ideal first scope place)
    : contents (ideal.clear scope) first place
      = if place.scope = scope then none else contents ideal first place := by
  cases place with
  | kv s k => rfl
  | log s n k id | queue s id =>
    by_cases here : s = scope
    · simp [Ideal.clear, Place.scope, here]
    · simp [Ideal.clear, Place.scope, here]

include keeps in
/-- Clearing removes the directory of the scope; the empty scope would be the directory of all of
them.
-/
theorem Keeps.clear (pid : Nat) (stale : (ttlSecs : Nat) → (name : String) → Bool) (scope)
    (separate : Separate (.clear scope) ideal)
    : Keeps ((Call.clear scope).run (FsStorage pid stale) client).2 (ideal.clear scope) := by
  obtain ⟨first, stores⟩ := keeps.files
  refine ⟨⟨first, ?_⟩, fun log => ?_⟩
  · by_cases named : scope = []
    · subst named
      refine (Stores.clearAll _).of_contents fun place => ?_
      rw [contents_clear]
      split
      · rfl
      next other =>
        obtain ⟨kv, log, queue⟩ := separate rfl place.scope other
        cases place with
        | kv s k => exact (kv k).symm
        | log s n k id => simp [show ideal.log (s, n, k) = [] from log n k]
        | queue s id => simp [show ideal.queue s = [] from queue]
    · exact (stores.clear named).of_contents fun place => (contents_clear ..).symm
  · change (if log.1 = scope then [] else client.issued log)
      = span 0 (if log.1 = scope then [] else ideal.log log).length
    split
    · rfl
    · exact keeps.issued log

/-- The file system backend simulates the ideal store, one case for each call. -/
theorem simulates (pid : Nat) (stale : (ttlSecs : Nat) → (name : String) → Bool)
    : (FsStorage pid stale).machine.Simulates machine Separate Keeps := by
  intro call client ideal keeps separate
  obtain ⟨first, stores⟩ := keeps.files
  cases call with
  | kvGet scope key =>
    refine ⟨?_, keeps⟩
    change Answer.value (read client.store.files (kvPath scope key)) = _
    rw [kvPath_eq, stores.reads]
    rfl
  | kvPut scope key value =>
    exact ⟨rfl, ⟨first, (stores.kvPut scope key value).of_contents
      (contents_kv ideal first scope key (some value))⟩, keeps.issued⟩
  | kvDel scope key =>
    refine ⟨rfl, ⟨first, ?_⟩, keeps.issued⟩
    exact (stores.remove _).of_contents (contents_kv ideal first scope key none)
  | append scope ns key value =>
    have free : contents ideal first (.log scope ns key (ideal.log (scope, ns, key)).length)
        = none := by simp
    have run : Fs.append scope ns key value client.store = _ :=
      append_eq client.store scope ns key value
    rw [nextId_log stores, createNew_eq stores scope ns key value _ _ free] at run
    change (client.give (Fs.append scope ns key value client.store).2 _
        [(Fs.append scope ns key value client.store).1]).1 = _
      ∧ Keeps (client.give (Fs.append scope ns key value client.store).2 _
        [(Fs.append scope ns key value client.store).1]).2 _
    rw [run]
    exact keeps.append { client.store with files := _ } (stores.append scope ns key value)
  | appendMany scope ns key values =>
    obtain ⟨ids, next⟩ := createEach_eq stores scope ns key values
    have run := appendMany_eq client.store scope ns key values
    simp only [nextId_log stores, ids] at run
    change (client.give (Fs.appendMany scope ns key values client.store).2 _
        (Fs.appendMany scope ns key values client.store).1).1 = _
      ∧ Keeps (client.give (Fs.appendMany scope ns key values client.store).2 _
        (Fs.appendMany scope ns key values client.store).1).2 _
    rw [run]
    exact keeps.append { client.store with files := _ } next
  | scan scope ns key after limit =>
    have answered := (keeps.view (scope, ns, key)).scan after limit
    have run := scan_eq stores scope ns key (cursor (client.issued (scope, ns, key)) after) limit
    rw [← keeps.issued] at run
    constructor
    · change Answer.entries ((Fs.scan scope ns key _ limit client.store).1.map _) = _
      rw [run, answered]
      rfl
    · change Keeps
        { client with
          store := (Fs.scan scope ns key (cursor (client.issued (scope, ns, key)) after) limit
            client.store).2 } _
      exact keeps
  | queuePush scope items =>
    obtain ⟨first, stores, next⟩ := nextId_queue stores scope
    refine ⟨rfl, ⟨first, ?_⟩, keeps.issued⟩
    have pushed := pushEach_stores stores scope items
    rw [← next] at pushed
    exact pushed
  | queuePop scope =>
    obtain ⟨item, first, popped⟩ := claim_stores stores scope
      (toString pid ++ "_" ++ toString client.store.seq)
    exact ⟨congrArg Answer.value item, ⟨first, popped⟩, keeps.issued⟩
  | clear scope => exact ⟨rfl, keeps.clear pid stale scope separate⟩

end

end Vgi.Storage.Fs

namespace Vgi.Storage

open Lib

/-- A client gets the same answers from both backends, those of the ideal store, with log ids
by their positions; both give out the ids of each log in increasing order. For the file system
backend the empty scope is cleared only while no other scope has anything.
-/
theorem backends_interchangeable (pid : Nat) (stale : (ttlSecs : Nat) → (name : String) → Bool)
    (calls : List Call) (separate : Ideal.machine.Permits Fs.Separate calls .empty)
    : MemoryStorage.machine.outputs calls Memory.start = Ideal.machine.outputs calls .empty
      ∧ (FsStorage pid stale).machine.outputs calls Fs.start = Ideal.machine.outputs calls .empty
      ∧ ∀ log, ((MemoryStorage.machine.final calls Memory.start).issued log).Pairwise (· < ·)
        ∧ (((FsStorage pid stale).machine.final calls Fs.start).issued log).Pairwise (· < ·) := by
  obtain ⟨memory, holds⟩ :=
    Memory.simulates.run Memory.Holds.start (Transducer.permits_true _ calls _)
  obtain ⟨files, keeps⟩ := (Fs.simulates pid stale).run Fs.Keeps.start separate
  exact ⟨memory, files, fun log => ⟨(holds.log log).increasing, (keeps.view log).increasing⟩⟩

/-- A client of two scopes, one of them empty. -/
def sampleCalls : List Call :=
  [.queuePush [] [[7]], .clear [], .appendMany [1] [9] [] [[4], [5]],
    .scan [1] [9] [] (some 0) 10, .queuePush [1] [[8]], .queuePop [1], .queuePop []]

theorem separate_sampleCalls : Ideal.machine.Permits Fs.Separate sampleCalls .empty := by
  refine ⟨nofun, fun _ scope other => ?_, nofun, nofun, nofun, nofun, nofun, trivial⟩
  simp [Ideal.machine, Ideal.run, Ideal.empty, other]

/-- The memory and the file system answer the calls of that client alike. -/
theorem backends_interchangeable_sample : Ideal.machine.Permits Fs.Separate sampleCalls .empty
      ∧ MemoryStorage.machine.outputs sampleCalls Memory.start
        = [.done, .done, .positions [some 0, some 1], .entries [(some 1, [5])], .done,
            .value (some [8]), .value none]
      ∧ (FsStorage 7 fun _ _ => false).machine.outputs sampleCalls Fs.start
        = MemoryStorage.machine.outputs sampleCalls Memory.start := by
  obtain ⟨memory, files, _⟩ :=
    backends_interchangeable 7 (fun _ _ => false) sampleCalls separate_sampleCalls
  refine ⟨separate_sampleCalls, ?_, files.trans memory.symm⟩
  decide +kernel

/-- Clearing the empty scope empties the file system backend. -/
theorem backends_differ : let calls : List Call := [.kvPut [1] [2] [3], .clear [], .kvGet [1] [2]]
      MemoryStorage.machine.outputs calls Memory.start = [.done, .done, .value (some [3])]
      ∧ (FsStorage 7 fun _ _ => false).machine.outputs calls Fs.start
        = [.done, .done, .value none] := by
  decide +kernel

end Vgi.Storage
