import Mathlib.Logic.Function.Basic
import Vgi.Rpc

/-! The launcher's memo of resolved sockets. It is kept for the process and goes by the hash of a
worker, while the sockets are in the state directory of each call.
-/

namespace Vgi.Client

open Function Lib

@[ext]
structure SocketPath where
  dir : String
  file : String
deriving DecidableEq

/-- A call of `ensure_worker`, with what the system answers during it. -/
structure Launch where
  argv : List String
  stateDir : Option String
  cwd : Result String
  hashedEnv : List (String × String)
  defaultStateDir : String
  /-- Creates the directory if it is absent, and checks its owner. -/
  openDir : String → Result Unit
  lock : SocketPath → Result Unit
  /-- The probe of a remembered path. -/
  probe : SocketPath → Bool
  /-- The probe under the lock. -/
  probeLocked : SocketPath → Bool
  spawnWorker : SocketPath → Result Unit

abbrev Resolved := String → Option SocketPath

namespace Launch

variable (computeHash : List String → String → List (String × String) → String) (launch : Launch)

def dir : String := launch.stateDir.getD launch.defaultStateDir

def hash (cwd : String) : String := computeHash launch.argv cwd launch.hashedEnv

/-- The socket of the worker that is asked for. -/
def socket (cwd : String) : SocketPath := ⟨launch.dir, launch.hash computeHash cwd ++ ".sock"⟩

/-- `ensure_worker` from the state directory on. -/
def start (cwd : String) : Result SocketPath := do
  launch.openDir launch.dir
  launch.lock ⟨launch.dir, launch.hash computeHash cwd ++ ".lock"⟩
  let sock := launch.socket computeHash cwd
  if launch.probeLocked sock then pure sock
  else
    launch.spawnWorker sock
    pure sock

def ensureWorker (resolved : Resolved) : Result SocketPath × Resolved :=
  match launch.cwd with
  | .error e => (.error e, resolved)
  | .ok cwd =>
    match (resolved (launch.hash computeHash cwd)).filter launch.probe with
    | some path => (.ok path, resolved)
    | none =>
      let sock := launch.start computeHash cwd
      (sock, update resolved (launch.hash computeHash cwd) sock.toOption)

/-- What is remembered after these calls. -/
def remembered (calls : List Launch) : Resolved :=
  calls.foldl (fun resolved launch => (launch.ensureWorker computeHash resolved).2) fun _ => none

/-- What the call answers after these. -/
def answer (calls : List Launch) : Result SocketPath :=
  (launch.ensureWorker computeHash (remembered computeHash calls)).1

variable {computeHash launch}

theorem start_eq_ok {cwd path} (starts : launch.start computeHash cwd = .ok path)
    : path = launch.socket computeHash cwd := by
  simp only [start, bind_eq_ok] at starts
  obtain ⟨_, -, _, -, starts⟩ := starts
  split at starts
  · exact (pure_eq_ok.mp starts).symm
  · obtain ⟨_, -, starts⟩ := bind_eq_ok.mp starts
    exact (pure_eq_ok.mp starts).symm

variable {resolved : Resolved}

/-- An answer is the remembered path, if there is one and it is alive, or the call's own socket. -/
theorem ensureWorker_eq_ok {path}
    (answers : (launch.ensureWorker computeHash resolved).1 = .ok path)
    : ∃ cwd, launch.cwd = .ok cwd
      ∧ (resolved (launch.hash computeHash cwd) = some path ∧ launch.probe path = true
        ∨ path = launch.socket computeHash cwd) := by
  unfold ensureWorker at answers
  split at answers
  · cases answers
  next cwd is =>
    refine ⟨cwd, is, ?_⟩
    split at answers
    next found =>
      cases answers
      exact .inl (Option.filter_eq_some_iff.mp found)
    · exact .inr (start_eq_ok answers)

/-- A path is remembered under the hash that names its file. -/
def Named (resolved : Resolved) : Prop :=
  ∀ hash path, resolved hash = some path → path.file = hash ++ ".sock"

theorem Named.ensureWorker (named : Named resolved)
    : Named (launch.ensureWorker computeHash resolved).2 := by
  unfold Launch.ensureWorker
  split
  · exact named
  next cwd is =>
    split
    · exact named
    · intro hash path remembers
      simp only [update_apply] at remembers
      split at remembers
      next same =>
        rw [start_eq_ok (toOption_eq_some.mp remembers), same]
        rfl
      · exact named hash path remembers

theorem named_remembered (calls) : Named (remembered computeHash calls) := by
  induction calls using List.reverseRecOn with
  | nil => exact nofun
  | append_singleton calls call ih =>
    rw [remembered, List.foldl_concat]
    exact ih.ensureWorker

/-- After any calls, an answer is named by the hash of its call; it is the call's own socket
exactly if a remembered path that is alive is in the state directory of the call.
-/
theorem ensured_worker_iff (computeHash : List String → String → List (String × String) → String)
    (calls : List Launch) (launch : Launch)
    : (∀ path, launch.answer computeHash calls = .ok path →
        ∃ cwd, launch.cwd = .ok cwd ∧ path.file = launch.hash computeHash cwd ++ ".sock")
      ∧ ((∀ path, launch.answer computeHash calls = .ok path →
          ∃ cwd, launch.cwd = .ok cwd ∧ path = launch.socket computeHash cwd)
        ↔ ∀ cwd path, launch.cwd = .ok cwd →
          remembered computeHash calls (launch.hash computeHash cwd) = some path →
          launch.probe path = true → path.dir = launch.dir) := by
  have named : Named (remembered computeHash calls) := named_remembered calls
  refine ⟨fun path answers => ?_, fun own cwd path is remembers alive => ?_,
    fun within path answers => ?_⟩
  · obtain ⟨cwd, is, ⟨remembers, -⟩ | rfl⟩ := ensureWorker_eq_ok answers
    · exact ⟨cwd, is, named _ path remembers⟩
    · exact ⟨cwd, is, rfl⟩
  · have answers : launch.answer computeHash calls = .ok path := by
      simp [answer, ensureWorker, is, remembers, alive, Option.filter_some]
    obtain ⟨_, same, rfl⟩ := own path answers
    rfl
  · obtain ⟨cwd, is, ⟨remembers, alive⟩ | own⟩ := ensureWorker_eq_ok answers
    · exact ⟨cwd, is, SocketPath.ext (within cwd path is remembers alive) (named _ path remembers)⟩
    · exact ⟨cwd, is, own⟩

/-- A worker that everything works for, with its sockets in a directory. -/
def inDir (dir : String) : Launch :=
  ⟨["worker"], some dir, .ok "/", [], "/tmp", fun _ => .ok (), fun _ => .ok (), fun _ => true,
    fun _ => true, fun _ => .ok ()⟩

/-- The second launch is answered with the socket in the state directory of the first. -/
theorem other_state_dir
    : (inDir "/b").answer (fun argv cwd _ => cwd ++ String.join argv) [inDir "/a"]
      = .ok ⟨"/a", "/worker.sock"⟩ := by
  decide

end Launch

end Vgi.Client
