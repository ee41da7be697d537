import Vgi.Storage.Backend
import Mathlib.Logic.Function.Basic

/-! The in-process backend, and backends that append several values at once. -/

namespace Vgi.Storage

open Function

structure BatchStorage (σ : Type) extends FunctionStorage σ where
  appendMany (scope ns key : Bytes) (values : List Bytes) : StateM σ (List Int)

/-- The default `append_many`: one `append` per value. -/
def FunctionStorage.appendEach {σ : Type} (store : FunctionStorage σ) (scope ns key : Bytes)
    (values : List Bytes) : StateM σ (List Int) :=
  values.mapM (store.append scope ns key)

namespace Memory

/-- The maps behind the lock, each as its look-up function, and the next log id. -/
structure Inner where
  kv : Bytes × Bytes → Option Bytes
  log : Bytes × Bytes × Bytes → Option (List (Int × Bytes))
  queue : Bytes → Option (List Bytes)
  nextId : Int

def Inner.default : Inner where
  kv := fun _ => none
  log := fun _ => none
  queue := fun _ => none
  nextId := 0

def kvGet (scope key : Bytes) : StateM Inner (Option Bytes) := do
  return (← get).kv (scope, key)

def kvPut (scope key value : Bytes) : StateM Inner Unit :=
  modify fun g => { g with kv := update g.kv (scope, key) (some value) }

def kvDel (scope key : Bytes) : StateM Inner Unit :=
  modify fun g => { g with kv := update g.kv (scope, key) none }

def append (scope ns key value : Bytes) : StateM Inner Int := do
  let id := (← get).nextId
  modify fun g => { g with
    nextId := id + 1
    log := update g.log (scope, ns, key)
      (some ((g.log (scope, ns, key)).getD [] ++ [(id, value)])) }
  return id

/-- The entries are in the order of their ids, so the partition point of the cursor is where
the ids above it begin.
-/
def scan (scope ns key : Bytes) (afterId : Int) (limit : Nat)
    : StateM Inner (List (Int × Bytes)) := do
  match (← get).log (scope, ns, key) with
  | some entries => return (entries.dropWhile (·.1 ≤ afterId)).take limit
  | none => return []

def queuePush (scope : Bytes) (items : List Bytes) : StateM Inner Unit :=
  modify fun g => { g with
    queue := update g.queue scope (some ((g.queue scope).getD [] ++ items)) }

def queuePop (scope : Bytes) : StateM Inner (Option Bytes) := do
  match (← get).queue scope with
  | some (item :: rest) =>
    modify fun g => { g with queue := update g.queue scope (some rest) }
    return some item
  | _ => return none

def clear (scope : Bytes) : StateM Inner Unit :=
  modify fun g => { g with
    kv := fun entry => if entry.1 = scope then none else g.kv entry
    log := fun entry => if entry.1 = scope then none else g.log entry
    queue := update g.queue scope none }

/-- The trait's default sweeps nothing. -/
def gc (_ttlSecs : Nat) : StateM Inner Unit := pure ()

section

variable (inner : Inner) (scope ns key value : Bytes)

theorem append_eq : append scope ns key value inner
      = (inner.nextId, { inner with
            nextId := inner.nextId + 1
            log := update inner.log (scope, ns, key)
              (some ((inner.log (scope, ns, key)).getD [] ++ [(inner.nextId, value)])) }) := rfl

theorem scan_eq (afterId limit)
    : scan scope ns key afterId limit inner
      = ((((inner.log (scope, ns, key)).getD []).dropWhile (·.1 ≤ afterId)).take limit, inner) := by
  change (match inner.log (scope, ns, key) with | some entries => _ | none => _ : StateM Inner _)
    inner = _
  cases inner.log (scope, ns, key) with
  | some entries => rfl
  | none => exact Prod.ext List.take_nil.symm rfl

theorem queuePop_eq : queuePop scope inner
      = (((inner.queue scope).getD []).head?,
          match inner.queue scope with
          | some (_ :: rest) => { inner with queue := update inner.queue scope (some rest) }
          | _ => inner) := by
  change (match inner.queue scope with | some (item :: rest) => _ | _ => _ : StateM Inner _)
    inner = _
  rcases inner.queue scope with _ | _ | ⟨item, rest⟩ <;> rfl

end

end Memory

def memoryFunctions : FunctionStorage Memory.Inner where
  kvGet := Memory.kvGet
  kvPut := Memory.kvPut
  kvDel := Memory.kvDel
  append := Memory.append
  scan := Memory.scan
  queuePush := Memory.queuePush
  queuePop := Memory.queuePop
  clear := Memory.clear
  gc := Memory.gc

def MemoryStorage : BatchStorage Memory.Inner where
  toFunctionStorage := memoryFunctions
  appendMany := memoryFunctions.appendEach

end Vgi.Storage
