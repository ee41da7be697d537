import Vgi.Storage.Client
import Vgi.Window.Calls

/-! Loads after the re-initialisation of a window partition. A fill that took its generation
after the init invalidated the key, and read a part before the init wrote it, passes the
generation check although it is old; in runs without such a read every load after an init
gets what that init stored.
-/

namespace Vgi.Window

open Lib Function Option List Process

section

variable {Batch Schema : Type} {ipc : Ipc Batch Schema}
  {limits : Limits (CachedWindowPartition Batch Schema)} {process after : Process Batch Schema}
  {index : Nat} {call : Call Batch Schema}

variable {suffix : Suffix} {found : Call Batch Schema} {kind : Kind} {todo : List (Key × Nat)}

/-- No two parts of partitions of one execution share a store key. -/
theorem winKey_injective {partition other suffix'}
    (same : winKey partition suffix = winKey other suffix')
    : partition = other ∧ suffix = suffix' := by
  have chars := congrArg String.toList (utf8_eq_iff.mp same)
  simp only [String.toList_append, append_assoc, append_cancel_left_eq] at chars
  have width (suffix : Suffix) : ∃ c, suffix.text.toList = [c] := by
    cases suffix <;> exact ⟨_, rfl⟩
  obtain ⟨c, text⟩ := width suffix
  obtain ⟨d, text'⟩ := width suffix'
  rw [text, text'] at chars
  have ends := append_inj' chars (by simp)
  refine ⟨toString_int_inj ends.1, ?_⟩
  have last : suffix.text.toList = suffix'.text.toList := by
    rw [text, text']
    exact append_cancel_left ends.2
  cases suffix <;> cases suffix' <;> first | rfl | exact absurd last (by decide)

theorem stored_store (key other suffix suffix' value)
    : (process.store key suffix value).stored other suffix'
      = if other = key ∧ suffix' = suffix then value else process.stored other suffix' := by
  simp only [stored, store]
  by_cases exec : other.exec = key.exec
  · rw [exec, update_self, update_apply]
    by_cases part : winKey other.partition suffix' = winKey key.partition suffix
    · obtain ⟨partition, same⟩ := winKey_injective part
      have keys : other = key := by
        cases other
        cases key
        simp_all
      simp [keys, same]
    · rw [if_neg part, if_neg]
      intro both
      exact part (by rw [both.1, both.2])
  · rw [update_of_ne exec, if_neg]
    intro both
    exact exec (by rw [both.1])

def Phase.generation? : Phase Batch Schema → Option Nat
  | .readP generation | .readO generation _ | .readM generation _ _ => some generation
  | .insert generation _ => some generation
  | _ => none

/-- The part of the partition that the next step of a load reads. -/
def Phase.reads : Phase Batch Schema → Option Suffix
  | .readP _ => some .p
  | .readO .. => some .o
  | .readM .. => some .m
  | _ => none

/-- A load in progress goes by this generation. -/
def Process.Held (process : Process Batch Schema) (generation : Nat) : Prop :=
  ∃ index call key, process.calls index = some call ∧ call.kind = .load key
    ∧ call.phase.generation? = some generation

/-- A call starts that changes a key together with one in progress, and one of them is an
init.
-/
def Process.Overlaps (process : Process Batch Schema) : Action → Prop
  | .start _ kind =>
    ∃ index call key, process.calls index = some call ∧ call.phase.isDone = false
      ∧ call.kind.changes key ∧ kind.changes key ∧ (call.kind.isInit ∨ kind.isInit)
  | .advance _ => False

/-- A load whose generation is the current one reads a part that an init, which has
invalidated the key, has not written yet.
-/
def Process.ReadsUnwritten (process : Process Batch Schema) : Action → Prop
  | .start .. => False
  | .advance index =>
    ∃ call key suffix dto written, process.calls index = some call ∧ call.kind = .load key
      ∧ call.phase.reads = some suffix
      ∧ call.phase.generation? = some process.cache.generation
      ∧ process.current key = some (dto, written) ∧ written ≤ suffix.index

/-- The action moves the cache to its next generation. -/
def Process.Bumps (process : Process Batch Schema) : Action → Prop
  | .start .. => False
  | .advance index =>
    ∃ call, process.calls index = some call ∧
      match call.phase with
      | .remove | .clearExecution => True
      | .expel key owner _ => process.cache.isStill key owner
      | _ => False

structure Process.Orderly (process : Process Batch Schema) (action : Action) : Prop where
  apart : ¬process.Overlaps action
  written : ¬process.ReadsUnwritten action
  fresh : process.Bumps action → ¬process.Held process.cache.bump.generation

/-- The init that a fill has to agree with: one that invalidated the key before the fill took
its generation, or the one the load is due.
-/
def Process.Relevant (process : Process Batch Schema) (key : Key) (generation : Nat)
    (due : Option WindowInit) (dto : WindowInit) : Prop :=
  (generation = process.cache.generation ∧ ∃ written, process.current key = some (dto, written))
  ∨ due = some dto

def LoadOk (ipc : Ipc Batch Schema) (process : Process Batch Schema) (key : Key)
    (due : Option WindowInit) : Phase Batch Schema → Prop
  | .readO generation pb => ∀ dto, process.Relevant key generation due dto → dto.stored .p = some pb
  | .readM generation pb os =>
    ∀ dto, process.Relevant key generation due dto →
      dto.stored .p = some pb ∧ dto.stored .o = some os
  | .insert generation content =>
    ∀ dto, process.Relevant key generation due dto → dto.decode ipc = .ok content
  | .done result =>
    ∀ dto, due = some dto → ∃ content, dto.decode ipc = .ok content ∧ result = .ok (some content)
  | _ => True

def InitOk (ipc : Ipc Batch Schema) (process : Process Batch Schema) (key : Key)
    (dto : WindowInit) : Phase Batch Schema → Prop
  | .write suffix _ content =>
    process.current key = some (dto, suffix.index) ∧ dto.decode ipc = .ok content
  | .insert _ content => process.current key = some (dto, 3) ∧ dto.decode ipc = .ok content
  | _ => True

def CallOk (ipc : Ipc Batch Schema) (process : Process Batch Schema)
    (call : Call Batch Schema) : Prop :=
  match call.kind with
  | .load key =>
    LoadOk ipc process key call.due call.phase
    ∧ (call.phase.isDone = false → ∀ dto, call.due = some dto → process.settled key = some dto)
  | .init key dto =>
    InitOk ipc process key dto call.phase
    ∧ (call.phase.isDone = false → process.settled key = none)
  | .windowDestructor _ | .aggregateDestructor _ => True

/-- Two calls in progress do not both change a key if one of them is an init. -/
def Process.Exclusive (process : Process Batch Schema) : Prop :=
  ∀ ⦃index other call call' key⦄, process.calls index = some call →
    process.calls other = some call' → call.phase.isDone = false →
    call'.phase.isDone = false → call.kind.changes key → call'.kind.changes key →
    call.kind.isInit → index = other

structure Coherent (ipc : Ipc Batch Schema) (process : Process Batch Schema) : Prop where
  written : ∀ {key dto count}, process.current key = some (dto, count) →
    ∀ suffix : Suffix, suffix.index < count → process.stored key suffix = dto.stored suffix
  cached : ∀ {key dto count slot}, process.current key = some (dto, count) →
    process.cache.get key = some slot → dto.decode ipc = .ok slot.content
  settled : ∀ {key dto}, process.settled key = some dto →
    process.current key = some (dto, 3) ∧ ∃ content, dto.decode ipc = .ok content
  exclusive : process.Exclusive
  idle : ∀ {index call key}, process.calls index = some call → call.phase.isDone = false →
    call.kind.changes key → call.kind.isInit = false → process.current key = none
  calls : ∀ {index call}, process.calls index = some call → CallOk ipc process call

/-- What a call relies on survives a change that makes no other init relevant to its fill and
leaves its own key alone.
-/
theorem CallOk.mono (ok : CallOk ipc process call)
    (loads : ∀ key, call.kind = .load key →
      (∀ generation dto, call.phase.generation? = some generation →
        after.Relevant key generation call.due dto →
        process.Relevant key generation call.due dto)
      ∧ (call.phase.isDone = false → ∀ dto, call.due = some dto →
          process.settled key = some dto → after.settled key = some dto))
    (inits : ∀ key dto, call.kind = .init key dto → call.phase.isDone = false →
      after.current key = process.current key ∧ after.settled key = process.settled key)
    : CallOk ipc after call := by
  obtain ⟨kind, phase, due⟩ := call
  cases kind with
  | load key =>
    obtain ⟨relevant, settles⟩ := loads key rfl
    refine ⟨?_, fun running dto is => settles running dto is (ok.2 running dto is)⟩
    cases phase with
    | readO generation pb | readM generation pb os =>
      exact fun dto is => ok.1 dto (relevant generation dto rfl is)
    | insert generation content =>
      exact fun dto is => ok.1 dto (relevant generation dto rfl is)
    | done result => exact ok.1
    | _ => trivial
  | init key dto =>
    cases running : phase.isDone with
    | true =>
      refine ⟨?_, fun running' => by simp [running] at running'⟩
      cases phase <;> trivial
    | false =>
      obtain ⟨current, settled⟩ := inits key dto rfl running
      refine ⟨?_, fun _ => settled.trans (ok.2 running)⟩
      cases phase with
      | write suffix generation content | insert generation content =>
        exact ⟨current.trans ok.1.1, ok.1.2⟩
      | _ => trivial
  | windowDestructor key => trivial
  | aggregateDestructor exec => trivial

variable {phase : Phase Batch Schema} {cache : Inner (CachedWindowPartition Batch Schema)}
  {other : Nat} {other' : Call Batch Schema}

/-- A call of the changed process is the changed one or was there before. -/
theorem update_calls_cases {calls : Nat → Option (Call Batch Schema)} {changed}
    (is : update calls index (some changed) other = some found)
    : (other = index ∧ found = changed) ∨ (other ≠ index ∧ calls other = some found) := by
  rw [update_apply] at is
  split at is
  next same => exact .inl ⟨same, (some.inj is).symm⟩
  next ne => exact .inr ⟨ne, is⟩

/-- A step of one call keeps the calls in progress apart. -/
theorem Process.Exclusive.step (exclusive : process.Exclusive) (next)
    (running : process.calls index = some call) (alive : call.phase.isDone = false)
    (kind : next.kind = call.kind)
    (calls : after.calls = update process.calls index (some next))
    : after.Exclusive := by
  intro first second found found' key is is' live live' changes changes' init
  rw [calls] at is is'
  rcases update_calls_cases is with ⟨rfl, rfl⟩ | ⟨-, was⟩
  · rw [kind] at changes init
    rcases update_calls_cases is' with ⟨rfl, -⟩ | ⟨-, was'⟩
    · rfl
    · exact exclusive running was' alive live' changes changes' init
  · rcases update_calls_cases is' with ⟨rfl, rfl⟩ | ⟨-, was'⟩
    · rw [kind] at changes'
      exact exclusive was running live alive changes changes' init
    · exact exclusive was was' live live' changes changes' init

variable (coherent : Coherent ipc process)

include coherent

/-- A call takes a step that may change the cache: what it adds there agrees with the init of
the key, and it leaves the generation or moves it to one that no fill goes by.
-/
theorem Coherent.update
    (running : process.calls index = some call) (alive : call.phase.isDone = false)
    (found : ∀ key slot, cache.get key = some slot → process.cache.get key = some slot
      ∨ ∀ dto count, process.current key = some (dto, count) → dto.decode ipc = .ok slot.content)
    (generation : cache.generation = process.cache.generation ∨ ¬process.Held cache.generation)
    (ok : CallOk ipc { process.setPhase index call phase with cache } { call with phase })
    : Coherent ipc { process.setPhase index call phase with cache } where
  written := coherent.written
  cached := by
    intro key dto count slot current is
    rcases found key slot is with was | agrees
    · exact coherent.cached current was
    · exact agrees dto count current
  settled := coherent.settled
  exclusive := coherent.exclusive.step { call with phase } running alive rfl rfl
  idle := by
    intro other found key is live changes destructs
    rcases update_calls_cases is with ⟨rfl, rfl⟩ | ⟨-, was⟩
    · exact coherent.idle running alive changes destructs
    · exact coherent.idle was live changes destructs
  calls := by
    intro other found is
    rcases update_calls_cases is with ⟨rfl, rfl⟩ | ⟨-, was⟩
    · exact ok
    · refine (coherent.calls was).mono ?_ fun _ _ _ _ => ⟨rfl, rfl⟩
      intro key load
      refine ⟨fun held dto goes relevant => ?_, fun _ _ _ settled => settled⟩
      rcases relevant with ⟨same, current⟩ | due
      · refine .inl ⟨?_, current⟩
        rcases generation with unchanged | unheld
        · exact same.trans unchanged
        · exact absurd ⟨other, found, key, was, load, same ▸ goes⟩ unheld
      · exact .inr due

variable (running : process.calls index = some call)

include running in
/-- A step that touches no shared state. -/
theorem Coherent.setPhase (alive : call.phase.isDone = false)
    (ok : CallOk ipc (process.setPhase index call phase) { call with phase })
    : Coherent ipc (process.setPhase index call phase) :=
  coherent.update running alive (fun _ _ is => .inl is) (.inl rfl) ok

variable {dto : WindowInit} {key : Key}

/-- The init a load is due is in the store and in the cache. -/
theorem Coherent.due {due} (running : process.calls index = some ⟨.load key, phase, due⟩)
    (alive : phase.isDone = false) (is : due = some dto)
    : process.current key = some (dto, 3) ∧ ∃ content, dto.decode ipc = .ok content :=
  coherent.settled ((coherent.calls running).2 alive dto is)

/-- A load reads the part of the init that is relevant to its fill. -/
theorem Coherent.reads {due generation}
    (running : process.calls index = some ⟨.load key, phase, due⟩)
    (orderly : ¬process.ReadsUnwritten (.advance index)) (reads : phase.reads = some suffix)
    (goes : phase.generation? = some generation)
    (relevant : process.Relevant key generation due dto)
    : process.stored key suffix = dto.stored suffix := by
  rcases relevant with ⟨same, written, current⟩ | is
  · refine coherent.written current suffix (Nat.lt_of_not_le fun unwritten => orderly ?_)
    exact ⟨_, key, suffix, dto, written, running, rfl, reads, same ▸ goes, current, unwritten⟩
  · have alive : phase.isDone = false := by
      cases phase <;> first | rfl | cases reads
    refine coherent.written (coherent.due running alive is).1 suffix ?_
    cases suffix <;> decide

variable (alive : phase.isDone = false)

include alive in
omit coherent in
/-- A prune asks nothing of a call. -/
theorem callOk_prune {due next} (ok : CallOk ipc process ⟨kind, phase, due⟩)
    (settled : after.settled = process.settled)
    (prunes : (∃ todo, next = kind.prune todo) ∨ ∃ key owner todo, next = .expel key owner todo)
    : CallOk ipc after ⟨kind, next, due⟩ := by
  cases kind with
  | load loaded =>
    refine ⟨?_, fun _ dto is => settled ▸ ok.2 alive dto is⟩
    rcases prunes with ⟨todo, rfl⟩ | ⟨_, _, _, rfl⟩
    · cases todo <;> trivial
    · trivial
  | init own dto =>
    refine ⟨?_, fun _ => settled ▸ ok.2 alive⟩
    rcases prunes with ⟨todo, rfl⟩ | ⟨_, _, _, rfl⟩
    · cases todo <;> trivial
    · trivial
  | windowDestructor own => trivial
  | aggregateDestructor exec => trivial

variable {due : Option WindowInit} {generation : Nat}
  (loading : process.calls index = some ⟨.load key, phase, due⟩)
  (moves : process.stepLoad ipc limits index ⟨.load key, phase, due⟩ key phase = some after)

include loading moves

theorem Coherent.lookup (is : phase = .lookup) : Coherent ipc after := by
  subst is
  have kept := (coherent.calls loading).2 rfl
  simp only [stepLoad, lookup_fst] at moves
  split at moves <;> cases moves
  next slot hit =>
    refine coherent.update loading rfl (fun _ _ is => .inl (by simpa using is))
      (.inl (by simp)) ⟨?_, nofun⟩
    intro dto is
    have settled := coherent.settled (kept dto is)
    exact ⟨slot.content, coherent.cached settled.1 hit, rfl⟩
  · exact coherent.update loading rfl (fun _ _ is => .inl (by simpa using is))
      (.inl (by simp)) ⟨trivial, fun _ => kept⟩

variable (orderly : ¬process.ReadsUnwritten (.advance index))

include orderly

theorem Coherent.readP (is : phase = .readP generation) : Coherent ipc after := by
  subst is
  simp only [stepLoad] at moves
  split at moves <;> cases moves
  next pb read =>
    refine coherent.setPhase loading rfl ⟨?_, fun _ => (coherent.calls loading).2 rfl⟩
    intro dto is
    exact (coherent.reads loading orderly rfl rfl is).symm.trans read
  next read =>
    refine coherent.setPhase loading rfl ⟨?_, nofun⟩
    intro dto is
    cases (coherent.reads loading orderly rfl rfl (.inr is)).symm.trans read

variable {pb : Bytes}

theorem Coherent.readO (is : phase = .readO generation pb) : Coherent ipc after := by
  subst is
  obtain ⟨first, kept⟩ := coherent.calls loading
  simp only [stepLoad] at moves
  split at moves <;> cases moves
  next os read =>
    refine coherent.setPhase loading rfl ⟨?_, fun _ => kept rfl⟩
    intro dto is
    exact ⟨first dto is, (coherent.reads loading orderly rfl rfl is).symm.trans read⟩
  next read =>
    refine coherent.setPhase loading rfl ⟨?_, nofun⟩
    intro dto is
    cases (coherent.reads loading orderly rfl rfl (.inr is)).symm.trans read

theorem Coherent.readM {os} (is : phase = .readM generation pb os) : Coherent ipc after := by
  subst is
  obtain ⟨first, kept⟩ := coherent.calls loading
  -- The three parts read are those of the init, so they decode to what it decoded.
  have decoded : ∀ dto, process.Relevant key generation due dto →
      decodeWindowPartition ipc pb os (process.stored key .m) = dto.decode ipc := by
    intro dto is
    obtain ⟨p, o⟩ := first dto is
    rw [coherent.reads loading orderly rfl rfl is, ← decode_stored]
    rw [some.inj p, some.inj o]
  simp only [stepLoad] at moves
  split at moves <;> cases moves
  next content read =>
    refine coherent.setPhase loading rfl ⟨?_, fun _ => kept rfl⟩
    intro dto is
    rw [← decoded dto is, read]
  next read =>
    refine coherent.setPhase loading rfl ⟨?_, nofun⟩
    intro dto is
    obtain ⟨-, fine, decodes⟩ := coherent.due loading rfl is
    rw [← decoded dto (.inr is), read] at decodes
    cases decodes

omit orderly in
theorem Coherent.insertLoad {content} (is : phase = .insert generation content)
    : Coherent ipc after := by
  subst is
  cases moves
  obtain ⟨agrees, -⟩ := coherent.calls loading
  refine coherent.update loading rfl ?_ (.inl (by simp)) ⟨?_, nofun⟩
  · intro other slot is
    rcases get_insertIfCurrent is with was | ⟨rfl, rfl, current⟩
    · exact .inl was
    · exact .inr fun dto count is => agrees dto (.inl ⟨current, count, is⟩)
  · intro dto is
    exact ⟨content, agrees dto (.inr is), rfl⟩

/-- A step of a load, by its phase: only the last one inserts into the cache. -/
theorem Coherent.stepLoad : Coherent ipc after := by
  cases phase with
  | lookup => exact coherent.lookup loading moves rfl
  | takeGeneration =>
    simp only [Process.stepLoad, some.injEq] at moves
    subst moves
    exact coherent.update loading rfl (fun _ _ is => .inl (by simpa using is))
      (.inl (by simp)) ⟨trivial, fun _ => (coherent.calls loading).2 rfl⟩
  | readP generation => exact coherent.readP loading moves orderly rfl
  | readO generation pb => exact coherent.readO loading moves orderly rfl
  | readM generation pb os => exact coherent.readM loading moves orderly rfl
  | insert generation content => exact coherent.insertLoad loading moves rfl
  | _ => cases moves

omit loading moves orderly

variable {content : CachedWindowPartition Batch Schema}

include alive

/-- While an init of the key is in progress, no other call changes the key. -/
theorem Coherent.sole (running : process.calls index = some ⟨.init key dto, phase, due⟩)
    (is : process.calls other = some other') (live : other'.phase.isDone = false)
    (changes : other'.kind.changes key)
    : other = index :=
  (coherent.exclusive running is alive live (by simp [Kind.changes]) changes rfl).symm

/-- A step of an init that has invalidated its key. It changes the store and the observations
for that key only, and what it leaves in the cache for the key is its own partition.
-/
structure InitStep (ipc : Ipc Batch Schema) (process after : Process Batch Schema)
    (index : Nat) (key : Key) (dto : WindowInit) (next : Call Batch Schema) (count : Nat)
    (settled : Option WindowInit) : Prop where
  calls : after.calls = update process.calls index (some next)
  current : after.current = update process.current key (some (dto, count))
  settled : after.settled = update process.settled key settled
  frame : ∀ other ≠ key, ∀ suffix, after.stored other suffix = process.stored other suffix
  written : ∀ suffix : Suffix, suffix.index < count → after.stored key suffix = dto.stored suffix
  found : ∀ other slot, after.cache.get other = some slot →
    (other = key ∧ dto.decode ipc = .ok slot.content)
    ∨ (other ≠ key ∧ process.cache.get other = some slot)
  generation : (after.cache.generation = process.cache.generation
      ∧ ∃ count, process.current key = some (dto, count))
    ∨ ¬process.Held after.cache.generation

/-- A step of an init, whichever it is: it has written `count` of its parts, and settles the key
when all three are there.
-/
theorem Coherent.stepOfInit {next count} (settled)
    (running : process.calls index = some ⟨.init key dto, phase, due⟩)
    (kind : next.kind = .init key dto)
    (step : InitStep ipc process after index key dto next count settled)
    (settles : ∀ other, settled = some other → other = dto ∧ count = 3)
    (decodes : dto.decode ipc = .ok content) (ok : CallOk ipc after next)
    : Coherent ipc after where
  written := by
    intro other found written current suffix within
    rw [step.current, update_apply] at current
    split at current
    next same =>
      cases current
      rw [same]
      exact step.written suffix within
    next ne =>
      rw [step.frame other ne]
      exact coherent.written current suffix within
  cached := by
    intro other found written slot current is
    rw [step.current, update_apply] at current
    rcases step.found other slot is with ⟨rfl, own⟩ | ⟨ne, was⟩
    · rw [if_pos rfl] at current
      cases current
      exact own
    · rw [if_neg ne] at current
      exact coherent.cached current was
  settled := by
    intro other found is
    rw [step.settled, update_apply] at is
    rw [step.current, update_apply]
    split at is
    next same =>
      obtain ⟨rfl, rfl⟩ := settles found is
      rw [if_pos same]
      exact ⟨rfl, content, decodes⟩
    next ne =>
      rw [if_neg ne]
      exact coherent.settled is
  exclusive := coherent.exclusive.step next running alive kind step.calls
  idle := by
    intro other found changed is live changes destructs
    rw [step.calls] at is
    rcases update_calls_cases is with ⟨rfl, rfl⟩ | ⟨ne, was⟩
    · rw [kind] at destructs
      cases destructs
    · rw [step.current, update_apply]
      split
      next same =>
        subst same
        exact absurd (coherent.sole alive running was live changes) ne
      · exact coherent.idle was live changes destructs
  calls := by
    intro other found is
    rw [step.calls] at is
    rcases update_calls_cases is with ⟨rfl, rfl⟩ | ⟨ne, was⟩
    · exact ok
    · refine (coherent.calls was).mono ?_ ?_
      · intro loaded load
        refine ⟨?_, ?_⟩
        · intro held dto' goes relevant
          rcases relevant with ⟨same, written, current⟩ | due
          · rcases step.generation with ⟨unchanged, own⟩ | unheld
            · refine .inl ⟨same.trans unchanged, ?_⟩
              rw [step.current, update_apply] at current
              split at current
              next same =>
                cases current
                rw [same]
                exact own
              · exact ⟨written, current⟩
            · exact absurd ⟨other, found, loaded, was, load, same ▸ goes⟩ unheld
          · exact .inr due
        · intro _ dto' _ settled
          rw [step.settled, update_apply, if_neg, settled]
          rintro rfl
          rw [(coherent.calls running).2 alive] at settled
          cases settled
      · intro other' dto' init live
        have ne' : other' ≠ key := by
          rintro rfl
          exact ne (coherent.sole alive running was live (by simp [init, Kind.changes]))
        rw [step.current, step.settled, update_of_ne ne', update_of_ne ne']
        exact ⟨rfl, rfl⟩

omit alive

omit coherent in
/-- What an invalidation leaves of the cache. -/
theorem get_remove {slot found} (is : (process.cache.remove key).2.get found = some slot)
    : found ≠ key ∧ process.cache.get found = some slot := by
  simp only [Inner.remove, get_removeKey] at is
  split at is
  · cases is
  next ne => exact ⟨ne, is⟩

omit coherent in
theorem generation_remove : (process.cache.remove key).2.generation
    = process.cache.bump.generation := by
  simp [Inner.remove]

/-- Invalidation raises the generation, so that loads which took the old one cannot insert. -/
theorem Coherent.removeForInit (fresh : ¬process.Held process.cache.bump.generation)
    (running : process.calls index = some ⟨.init key dto, .remove, due⟩)
    : Coherent ipc (process.removeForInit ipc index ⟨.init key dto, .remove, due⟩ key dto) := by
  obtain ⟨-, unsettled⟩ := coherent.calls running
  simp only [Process.removeForInit]
  cases decodes : dto.decode ipc with
  | error e =>
    exact coherent.update running rfl (fun _ _ is => .inl (get_remove is).2)
      (.inr (generation_remove ▸ fresh)) ⟨trivial, nofun⟩
  | ok content =>
    refine coherent.stepOfInit rfl (process.settled key) running rfl {
      calls := rfl
      current := rfl
      settled := by simp [Process.setPhase]
      frame := fun _ _ _ => rfl
      written := fun _ within => absurd within (Nat.not_lt_zero _)
      found := fun _ _ is => .inr (get_remove is)
      generation := .inr (generation_remove ▸ fresh)
    } ?_ decodes ⟨⟨?_, decodes⟩, unsettled⟩
    · intro other is
      rw [unsettled rfl] at is
      cases is
    · simp [Suffix.index]

theorem Coherent.write (running : process.calls index
      = some ⟨.init key dto, .write suffix generation content, due⟩)
    : Coherent ipc (process.write index ⟨.init key dto, .write suffix generation content, due⟩
        key dto suffix generation content) := by
  obtain ⟨⟨current, decodes⟩, unsettled⟩ := coherent.calls running
  refine coherent.stepOfInit rfl (process.settled key) running rfl {
    calls := rfl
    current := rfl
    settled := by simp [Process.write, Process.setPhase, store]
    frame := by
      intro other ne part
      refine (stored_store key other suffix part _).trans ?_
      rw [if_neg fun both => ne both.1]
    written := by
      intro part within
      refine (stored_store key key suffix part _).trans ?_
      by_cases same : part = suffix
      · rw [if_pos ⟨rfl, same⟩, same]
      · rw [if_neg fun both => same both.2]
        refine coherent.written current part ?_
        cases part <;> cases suffix <;> simp_all [Suffix.index]
    found := by
      intro other slot is
      by_cases same : other = key
      · subst same
        exact .inl ⟨rfl, coherent.cached current is⟩
      · exact .inr ⟨same, is⟩
    generation := .inl ⟨rfl, _, current⟩
  } ?_ decodes ⟨?_, fun _ => unsettled rfl⟩
  · intro other is
    rw [unsettled rfl] at is
    cases is
  · cases suffix <;> exact ⟨by simp [write, Suffix.index], decodes⟩

theorem Coherent.insertInit
    (running : process.calls index = some ⟨.init key dto, .insert generation content, due⟩)
    : Coherent ipc { process.insert limits index ⟨.init key dto, .insert generation content, due⟩
        key generation content none with
        settled := Function.update process.settled key (some dto) } := by
  obtain ⟨⟨current, decodes⟩, -⟩ := coherent.calls running
  exact coherent.stepOfInit rfl (some dto) running rfl {
    calls := rfl
    current := by
      rw [← current, update_eq_self]
      rfl
    settled := rfl
    frame := fun _ _ _ => rfl
    written := coherent.written current
    found := by
      intro other slot is
      rcases get_insertIfCurrent is with was | ⟨same, rfl, -⟩
      · by_cases same : other = key
        · subst same
          exact .inl ⟨rfl, coherent.cached current was⟩
        · exact .inr ⟨same, was⟩
      · exact .inl ⟨same, decodes⟩
    generation := .inl ⟨generation_insertIfCurrent .., _, current⟩
  } (fun _ is => ⟨(some.inj is).symm, rfl⟩) decodes ⟨trivial, nofun⟩

variable (fresh : process.Bumps (.advance index) → ¬process.Held process.cache.bump.generation)

include fresh

theorem Coherent.stepInit (running : process.calls index = some ⟨.init key dto, phase, due⟩)
    (moves : process.stepInit ipc limits index ⟨.init key dto, phase, due⟩ key dto phase
      = some after)
    : Coherent ipc after := by
  cases phase with
  | remove =>
    cases moves
    exact coherent.removeForInit (fresh ⟨_, running, trivial⟩) running
  | write suffix generation content =>
    cases moves
    exact coherent.write running
  | insert generation content =>
    cases moves
    exact coherent.insertInit running
  | _ => cases moves

variable {kv : Bytes → Bytes → Option Bytes}

include running in
omit fresh in
/-- A destructor changes the store only for keys that no init goes by. -/
theorem Coherent.forget (alive : call.phase.isDone = false)
    (kept : ∀ key, process.current key ≠ none → ∀ suffix,
      kv key.exec (winKey key.partition suffix) = process.stored key suffix)
    (ok : CallOk ipc process { call with phase })
    : Coherent ipc { process.setPhase index call phase with kv } := by
  have moved : Coherent ipc (process.setPhase index call phase) :=
    coherent.setPhase running alive (ok.mono (fun _ _ => ⟨fun _ _ _ is => is, fun _ _ _ is => is⟩)
      fun _ _ _ _ => ⟨rfl, rfl⟩)
  refine { moved with
    written := ?_
    calls := fun is => (moved.calls is).mono
      (fun _ _ => ⟨fun _ _ _ is => is, fun _ _ _ is => is⟩) fun _ _ _ _ => ⟨rfl, rfl⟩ }
  intro key dto count current suffix within
  have present : process.current key ≠ none := by
    intro missing
    exact some_ne_none _ (current.symm.trans missing)
  exact (kept key present suffix).trans (coherent.written current suffix within)

theorem Coherent.stepWindowDestructor
    (running : process.calls index = some ⟨.windowDestructor key, phase, due⟩)
    (moves : process.stepWindowDestructor index ⟨.windowDestructor key, phase, due⟩ key phase
      = some after)
    : Coherent ipc after := by
  cases phase with
  | delete suffix =>
    cases moves
    refine coherent.forget running rfl ?_ trivial
    intro other present part
    refine (stored_store key other suffix part none).trans (if_neg fun both => present ?_)
    exact coherent.idle running rfl (by simp [Kind.changes, both.1]) rfl
  | remove =>
    cases moves
    exact coherent.update running rfl (fun _ _ is => .inl (get_remove is).2)
      (.inr (generation_remove ▸ fresh ⟨_, running, trivial⟩)) trivial
  | _ => cases moves

theorem Coherent.stepAggregateDestructor {exec}
    (running : process.calls index = some ⟨.aggregateDestructor exec, phase, due⟩)
    (moves : process.stepAggregateDestructor index ⟨.aggregateDestructor exec, phase, due⟩ exec
      phase = some after)
    : Coherent ipc after := by
  cases phase with
  | clear =>
    cases moves
    refine coherent.forget running rfl ?_ trivial
    intro other present part
    by_cases same : other.exec = exec
    · exact absurd (coherent.idle running rfl (by simp [Kind.changes, same]) rfl) present
    · simp [stored, update_of_ne same]
  | clearExecution =>
    cases moves
    obtain ⟨shrinks, generation⟩ := removeKeys_spec
      ((process.cache.entries.map Prod.fst).filter (·.exec = exec)) process.cache.bump
    refine coherent.update running rfl (fun other slot is => .inl ?_) (.inr ?_) trivial
    · exact (get_bump ..).symm.trans (shrinks other slot is)
    · rw [Inner.clearExecution, generation]
      exact fresh ⟨_, running, trivial⟩
  | _ => cases moves

include running

omit fresh in
theorem Coherent.prune (alive : call.phase.isDone = false)
    : Coherent ipc (process.setPhase index call (call.kind.prune todo)) :=
  coherent.setPhase running alive
    (callOk_prune alive (coherent.calls running) rfl (.inl ⟨todo, rfl⟩))

variable {owner : Nat}

omit fresh in
theorem Coherent.check {found} (alive : call.phase.isDone = false)
    : Coherent ipc (process.check index call found owner todo) := by
  unfold Process.check
  split
  · exact coherent.prune running alive
  · exact coherent.setPhase running alive
      (callOk_prune alive (coherent.calls running) rfl (.inr ⟨_, _, _, rfl⟩))

omit running

/-- A prune removes an entry whose partition has left the store, unless another one took its place.
-/
theorem Coherent.expel {found}
    (running : process.calls index = some call) (phase : call.phase = .expel found owner todo)
    : Coherent ipc (process.expel index call found owner todo) := by
  have alive : call.phase.isDone = false := by
    rw [phase]
    rfl
  unfold Process.expel
  cases still : process.cache.isStill found owner with
  | false =>
    exact coherent.prune running alive
  | true =>
    simp only [if_true]
    have bumps : process.Bumps (.advance index) := by
      refine ⟨call, running, ?_⟩
      rw [phase]
      exact still
    refine coherent.update running alive (fun _ _ is => .inl ?_) (.inr ?_)
      (callOk_prune alive (coherent.calls running) rfl (.inl ⟨todo, rfl⟩))
    · rw [get_removeKey, get_bump] at is
      split at is
      · cases is
      · exact is
    · rw [generation_removeKey]
      exact fresh bumps

omit fresh

theorem Coherent.stepKind
    (orderly : process.Orderly (.advance index)) (running : process.calls index = some call)
    (moves : process.stepKind ipc limits index call = some after)
    : Coherent ipc after := by
  obtain ⟨kind, phase, due⟩ := call
  cases kind with
  | load key => exact coherent.stepLoad running moves orderly.written
  | init key dto => exact coherent.stepInit orderly.fresh running moves
  | windowDestructor key => exact coherent.stepWindowDestructor orderly.fresh running moves
  | aggregateDestructor exec =>
    exact coherent.stepAggregateDestructor orderly.fresh running moves

theorem Coherent.advance
    (orderly : process.Orderly (.advance index)) (running : process.calls index = some call)
    (moves : process.advance ipc limits index call = some after)
    : Coherent ipc after := by
  obtain ⟨kind, phase, due⟩ := call
  cases phase with
  | snapshot =>
    cases moves
    exact coherent.prune running rfl
  | check todo =>
    cases todo with
    | nil => exact coherent.stepKind orderly running moves
    | cons entry todo =>
      cases moves
      exact coherent.check running rfl
  | expel key owner todo =>
    cases moves
    exact coherent.expel orderly.fresh running rfl
  | _ => exact coherent.stepKind orderly running moves

omit coherent

@[simp] theorem release_same (kind) (call : Call Batch Schema)
    : (call.release kind).kind = call.kind ∧ (call.release kind).phase = call.phase := by
  unfold Call.release
  split
  · split <;> exact ⟨rfl, rfl⟩
  · exact ⟨rfl, rfl⟩

/-- A load that is no longer due its init relies on less. -/
theorem CallOk.release (kind) (ok : CallOk ipc process call)
    : CallOk ipc process (call.release kind) := by
  obtain ⟨own, phase, due⟩ := call
  cases own with
  | load key =>
    simp only [Call.release]
    split
    · refine ⟨?_, nofun⟩
      have weaken : ∀ generation dto, process.Relevant key generation none dto →
          process.Relevant key generation due dto := by
        intro generation dto is
        rcases is with current | due
        · exact .inl current
        · cases due
      cases phase with
      | readO generation pb | readM generation pb os | insert generation content =>
        exact fun dto is => ok.1 dto (weaken generation dto is)
      | done result => exact nofun
      | _ => trivial
    · exact ok
  | init key dto => exact ok
  | windowDestructor key => trivial
  | aggregateDestructor exec => trivial

/-- A load that is still due its init is not affected by the call that starts. -/
theorem release_due (load : call.kind = .load key)
    (alive : call.phase.isDone = false) (is : (call.release kind).due = some dto)
    : kind.changes key = false := by
  unfold Call.release at is
  rw [load] at is
  by_contra changes
  rw [Bool.not_eq_false] at changes
  simp [changes, alive] at is

/-- A call after the start of another is the new one or was there before. -/
theorem start_calls_cases (is : (process.start index kind).calls other = some found)
    : (other = index ∧ found.kind = kind ∧ found.phase = kind.first
        ∧ ∀ key, kind = .load key → found.due = process.settled key)
      ∨ ∃ call, process.calls other = some call ∧ found = call.release kind := by
  simp only [start] at is
  rcases update_calls_cases is with ⟨same, rfl⟩ | ⟨-, was⟩
  · refine .inl ⟨same, rfl, rfl, ?_⟩
    rintro key rfl
    rfl
  · obtain ⟨call, running, rfl⟩ := map_eq_some_iff.mp was
    exact .inr ⟨call, running, rfl⟩

/-- A call that starts has nothing to rely on yet. -/
theorem callOk_start (is : found.kind = kind) (first : found.phase = kind.first)
    (due : ∀ key, kind = .load key → found.due = process.settled key)
    : CallOk ipc (process.start index kind) found := by
  obtain ⟨own, phase, due'⟩ := found
  subst is
  cases own with
  | load key =>
    refine ⟨?_, fun _ dto is => ?_⟩
    · rw [first]
      trivial
    · rw [due key rfl] at is
      simp [start, Kind.changes, is]
  | init key dto =>
    refine ⟨?_, fun _ => by simp [start, Kind.changes]⟩
    rw [first]
    trivial
  | windowDestructor key => trivial
  | aggregateDestructor exec => trivial

/-- A call starts: an init of the key makes what is due for running loads unknown. -/
theorem Coherent.start (coherent : Coherent ipc process)
    (apart : ¬process.Overlaps (.start index kind))
    : Coherent ipc (process.start index kind) := by
  have current : ∀ {key entry}, (process.start index kind).current key = some entry →
      process.current key = some entry := by
    intro key entry is
    simp only [Process.start] at is
    split at is
    · cases is
    · exact is
  refine {
    written := fun is => coherent.written (current is)
    cached := fun is => coherent.cached (current is)
    settled := ?_
    exclusive := ?_
    idle := ?_
    calls := ?_
  }
  · intro key dto is
    simp only [Process.start] at is ⊢
    split at is
    · cases is
    next unchanged =>
      rw [if_neg unchanged]
      exact coherent.settled is
  · -- Of two running calls that change a key the new one would overlap with the other.
    intro first second found found' key is is' live live' changes changes' init
    rcases start_calls_cases is with ⟨rfl, rfl, -, -⟩ | ⟨call, was, rfl⟩
    · rcases start_calls_cases is' with ⟨rfl, -⟩ | ⟨call', was', rfl⟩
      · rfl
      · simp only [release_same] at live' changes'
        exact absurd ⟨second, call', key, was', live', changes', changes, .inr init⟩ apart
    · simp only [release_same] at live changes init
      rcases start_calls_cases is' with ⟨rfl, rfl, -, -⟩ | ⟨call', was', rfl⟩
      · exact absurd ⟨first, call, key, was, live, changes, changes', .inl init⟩ apart
      · simp only [release_same] at live' changes'
        exact coherent.exclusive was was' live live' changes changes' init
  · intro other found key is live changes destructs
    rcases start_calls_cases is with ⟨rfl, rfl, -, -⟩ | ⟨call, was, rfl⟩
    · simp [start, changes]
    · simp only [release_same] at live changes destructs
      simp [Process.start, coherent.idle was live changes destructs]
  · intro other found is
    rcases start_calls_cases is with ⟨rfl, rfl, first, due⟩ | ⟨call, was, rfl⟩
    · exact callOk_start rfl first due
    · refine ((coherent.calls was).release kind).mono ?_ ?_
      · intro key load
        simp only [release_same] at load
        refine ⟨?_, ?_⟩
        · intro generation dto _ relevant
          rcases relevant with ⟨same, written, is⟩ | due
          · exact .inl ⟨same, written, current is⟩
          · exact .inr due
        · intro live dto due settled
          simp only [release_same] at live
          simp [Process.start, release_due load live due, settled]
      · intro key dto init live
        simp only [release_same] at init live
        -- A running init relies on its key, so the new call leaves that key alone.
        have unchanged : kind.changes key = false := by
          by_contra changes
          rw [Bool.not_eq_false] at changes
          exact apart ⟨other, call, key, was, live, by simp [init, Kind.changes], changes,
            .inl (by rw [init]; rfl)⟩
        simp [Process.start, unchanged]

/-- A step of a call moves only that call. -/
theorem advance_calls (moves : process.advance ipc limits index call = some after)
    : ∃ phase, after.calls = update process.calls index (some { call with phase }) := by
  have own : process.stepKind ipc limits index call = some after →
      ∃ phase, after.calls = update process.calls index (some { call with phase }) := by
    intro moves
    unfold stepKind at moves
    split at moves
    · unfold stepLoad at moves
      repeat' split at moves
      all_goals cases moves
      all_goals exact ⟨_, rfl⟩
    · unfold stepInit removeForInit at moves
      repeat' split at moves
      all_goals cases moves
      all_goals exact ⟨_, rfl⟩
    · unfold stepWindowDestructor at moves
      split at moves <;> cases moves <;> exact ⟨_, rfl⟩
    · unfold stepAggregateDestructor at moves
      split at moves <;> cases moves <;> exact ⟨_, rfl⟩
  unfold advance check at moves
  split at moves
  · cases moves
    exact ⟨_, rfl⟩
  · split at moves <;> cases moves <;> exact ⟨_, rfl⟩
  · cases moves
    exact ⟨_, rfl⟩
  · exact own moves

theorem coherent_initial (initial : process.Initial) : Coherent ipc process where
  written := fun {key _ _} is => by rw [initial.current key] at is; cases is
  cached := fun {key _ _ _} is => by rw [initial.current key] at is; cases is
  settled := fun {key _} is => by rw [initial.settled key] at is; cases is
  exclusive := fun index _ _ _ _ is => by rw [initial.calls index] at is; cases is
  idle := fun {index _ _} is => by rw [initial.calls index] at is; cases is
  calls := fun {index _} is => by rw [initial.calls index] at is; cases is

/-- Every orderly step keeps the invariant. -/
theorem Coherent.next {action} (coherent : Coherent ipc process)
    (orderly : process.Orderly action) (moves : process.next ipc limits action = some after)
    : Coherent ipc after := by
  cases action with
  | start index kind =>
    simp only [Process.next] at moves
    split at moves
    · cases moves
    · cases moves
      exact coherent.start orderly.apart
  | advance index =>
    obtain ⟨call, running, moves⟩ := bind_eq_some_iff.mp moves
    exact coherent.advance orderly running moves

theorem coherent_of_reaches (reached : (windowMachine ipc limits).Reaches Orderly process)
    : Coherent ipc process :=
  reached.invariant (Coherent ipc) (fun _ => coherent_initial) Coherent.next

/-- In a run of window calls in which no fill under the current generation reads a part that
the init of its key has yet to write, every load that starts after an init of its key has
returned, and that no other init or destructor of the key overtakes, returns the partition,
schema and mask of that init.
-/
theorem load_returns_last_init
    (reached : (windowMachine ipc limits).Reaches Process.Orderly process)
    {result : Result (Option (CachedWindowPartition Batch Schema))}
    (returned : process.calls index = some ⟨.load key, .done result, some dto⟩)
    : ∃ content, dto.decode ipc = .ok content ∧ result = .ok (some content) :=
  ((coherent_of_reaches reached).calls returned).1 dto rfl

end

namespace WindowSample

def int (n : UInt8) : Bytes := [n, 0, 0, 0]

/-- The Arrow stream of a batch of two rows and no columns: the schema, the batch and the end
of the stream.
-/
def stream : Bytes :=
  [255, 255, 255, 255] ++ int 48
    ++ int 16 ++ [10, 0, 12, 0, 4, 0, 6, 0, 8, 0, 0, 0] ++ int 12 ++ [4, 0, 1, 0] ++ int 12
    ++ [8, 0, 8, 0, 0, 0, 4, 0] ++ int 8 ++ int 4 ++ int 0
    ++ [255, 255, 255, 255] ++ int 80
    ++ int 16 ++ [10, 0, 12, 0, 4, 0, 6, 0, 8, 0, 0, 0] ++ int 12 ++ [4, 0, 3, 0] ++ int 20
    ++ [10, 0, 20, 0, 4, 0, 12, 0, 16, 0] ++ [0, 0, 0, 0, 0, 0] ++ int 16 ++ int 2 ++ int 0
    ++ int 12 ++ int 16 ++ int 0 ++ int 0 ++ int 0 ++ int 0
    ++ [255, 255, 255, 255] ++ int 0

/-- Batches without columns, told apart by their rows. -/
def ipc : Ipc Nat Unit where
  readBatch := fun bytes =>
    if bytes = stream then .ok 2 else .error (runtimeError "ipc stream error")
  readSchema := fun bytes =>
    if bytes = stream then .ok () else .error (runtimeError "ipc stream error")
  numRows := id

def limits : Limits (CachedWindowPartition Nat Unit) where
  maxEntries := 256
  maxBytes := 256 * 1024 * 1024
  accountedBytes := fun _ => 512

def machine : Machine (Process Nat Unit) Action := windowMachine ipc limits

def start : Process Nat Unit where
  kv := fun _ _ => none
  cache := .empty
  calls := fun _ => none
  current := fun _ => none
  settled := fun _ => none

def key : Key := ⟨[1], 0⟩

/-- The first row passes. -/
def old : WindowInit := ⟨stream, stream, [1]⟩

/-- The second row passes. -/
def new : WindowInit := ⟨stream, stream, [2]⟩

def content (mask : List Bool) : CachedWindowPartition Nat Unit := ⟨2, (), some mask⟩

def steps (index count : Nat) : List Action := replicate count (.advance index)

/-- The load of call 2 takes its generation and reads the old partition between the
invalidation and the first write of the init of call 1, and is inserted after that init has
returned.
-/
def overtaken : List Action :=
  [.start 0 (.init key old)] ++ steps 0 6
    ++ [.start 1 (.init key new)] ++ steps 1 3
    ++ [.start 2 (.load key)] ++ steps 2 6
    ++ steps 1 4 ++ steps 2 1
    ++ [.start 3 (.load key)] ++ steps 3 1

theorem overtaken_ends : (machine.exec start overtaken).map (fun process => process.calls 3)
      = some (some ⟨.load key, .done (.ok (some (content [true, false]))), some new⟩) := by
  decide +kernel

/-- No load has taken a generation, and call 0 is an init. -/
structure Calm (process : Process Nat Unit) : Prop where
  unheld : ∀ generation, ¬process.Held generation
  init : ∀ call, process.calls 0 = some call → call.kind.isInit

variable {process : Process Nat Unit}

theorem orderly_advance {index}
    (unheld : ∀ generation, ¬process.Held generation) : process.Orderly (.advance index) where
  apart := id
  written := fun ⟨call, key, _, _, _, is, load, _, goes, _⟩ =>
    unheld _ ⟨index, call, key, is, load, goes⟩
  fresh := fun _ => unheld _

variable {after : Process Nat Unit}

theorem Calm.advance (calm : Calm process)
    (moves : machine.next process (.advance 0) = some after)
    : Calm after := by
  obtain ⟨call, running, moves⟩ := bind_eq_some_iff.mp moves
  obtain ⟨phase, calls⟩ := advance_calls moves
  have init := calm.init call running
  refine ⟨?_, ?_⟩
  · rintro generation ⟨other, found, key, is, load, goes⟩
    rw [calls] at is
    rcases update_calls_cases is with ⟨-, rfl⟩ | ⟨-, was⟩
    · rw [load] at init
      cases init
    · exact calm.unheld generation ⟨other, found, key, was, load, goes⟩
  · intro found is
    rw [calls, update_self] at is
    cases is
    exact init

theorem Calm.exec {count} (calm : Calm process) (reached : machine.Reaches Orderly process)
    (ends : machine.exec process (steps 0 count) = some after)
    : Calm after ∧ machine.Reaches Orderly after := by
  induction count generalizing process with
  | zero =>
    cases ends
    exact ⟨calm, reached⟩
  | succ count ih =>
    obtain ⟨next, moves, ends⟩ := bind_eq_some_iff.mp ends
    exact ih (calm.advance moves) (.step reached (orderly_advance calm.unheld) moves) ends

theorem calm_begun : Calm (start.start 0 (.init key new)) where
  unheld := by
    rintro generation ⟨other, call, key, is, load, goes⟩
    rcases start_calls_cases is with ⟨-, kind, -⟩ | ⟨_, was, -⟩
    · cases kind.symm.trans load
    · cases was
  init := by
    intro call is
    cases is
    rfl

/-- The state of the sample after its init. -/
theorem initialised : (machine.exec (start.start 0 (.init key new)) (steps 0 6)).map
        (fun process => (process.calls 1, process.settled key, process.cache.get key))
      = some (none, some new, some ⟨content [false, true], 0, 513⟩) := by
  decide +kernel

theorem load_reaches : ∃ process, machine.Reaches Orderly process
      ∧ process.calls 1
        = some ⟨.load key, .done (.ok (some (content [false, true]))), some new⟩ := by
  obtain ⟨process, ends, seen⟩ := map_eq_some_iff.mp initialised
  simp only [Prod.mk.injEq] at seen
  obtain ⟨vacant, settled, cached⟩ := seen
  have begun : machine.Reaches Orderly (start.start 0 (.init key new)) := by
    refine .step (.start ⟨rfl, fun _ => rfl, fun _ => rfl, fun _ => rfl⟩) ?_
      (show machine.next start (.start 0 (.init key new)) = _ from rfl)
    refine ⟨?_, id, fun bumps => bumps.elim⟩
    rintro ⟨index, call, key, is, -⟩
    cases is
  obtain ⟨calm, reached⟩ := calm_begun.exec begun ends
  have started : machine.Reaches Orderly (process.start 1 (.load key)) := by
    have orderly : process.Orderly (.start 1 (.load key)) := by
      refine ⟨?_, id, fun bumps => bumps.elim⟩
      rintro ⟨index, call, key, -, -, -, changes, -⟩
      cases changes
    refine .step reached orderly ?_
    simp [machine, windowMachine, Process.next, vacant]
  have unheld : ∀ generation, ¬(process.start 1 (.load key)).Held generation := by
    rintro generation ⟨other, found, loaded, is, load, goes⟩
    rcases start_calls_cases is with ⟨-, -, first, -⟩ | ⟨call, was, rfl⟩
    · rw [first] at goes
      cases goes
    · simp only [release_same] at load goes
      exact calm.unheld generation ⟨other, call, loaded, was, load, goes⟩
  have running : (process.start 1 (.load key)).calls 1 = some ⟨.load key, .lookup, some new⟩ := by
    simp [Process.start, Kind.first, settled]
  have moves : ∃ after, machine.next (process.start 1 (.load key)) (.advance 1) = some after
      ∧ after.calls 1 = some ⟨.load key, .done (.ok (some (content [false, true]))), some new⟩ := by
    have look : ((process.start 1 (.load key)).cache.lookup key).1
        = some ⟨content [false, true], 0, 513⟩ := (lookup_fst ..).trans cached
    simp only [machine, windowMachine, Process.next, running, bind_some, advance, stepKind,
      stepLoad, look]
    exact ⟨_, rfl, by simp [setPhase]⟩
  obtain ⟨after, moves, returned⟩ := moves
  exact ⟨after, .step started (orderly_advance unheld) moves, returned⟩

end WindowSample

open WindowSample

/-- A load after an init returns what that init stored. -/
theorem load_returns_last_init_sample
    : ∃ process, machine.Reaches Process.Orderly process
      ∧ process.calls 1 = some ⟨.load key, .done (.ok (some (content [false, true]))), some new⟩
      ∧ ∃ content, new.decode ipc = .ok content
        ∧ (.ok (some (WindowSample.content [false, true]))
            : Result (Option (CachedWindowPartition Nat Unit))) = .ok (some content) := by
  obtain ⟨process, reached, returned⟩ := load_reaches
  exact ⟨process, reached, returned, load_returns_last_init reached returned⟩

/-- A load that starts after the second init of a key has returned, with no init or destructor
of the key after that, returns the mask of the first.
-/
theorem load_returns_older_init
    : ∃ process content, machine.Reaches (fun _ _ => True) process
      ∧ process.calls 3 = some ⟨.load key, .done (.ok (some content)), some new⟩
      ∧ old.decode ipc = .ok content
      ∧ new.decode ipc ≠ .ok content := by
  obtain ⟨process, ends, seen⟩ := map_eq_some_iff.mp overtaken_ends
  refine ⟨process, _, ?_, seen, by decide +kernel, by decide +kernel⟩
  refine (Machine.Reaches.start ?_).exec (Machine.meets_true _ _) ends
  exact ⟨rfl, fun _ => rfl, fun _ => rfl, fun _ => rfl⟩

end Vgi.Window
