import Mathlib.Algebra.GroupWithZero.Nat
import Vgi.Lib.Except

/-! The error type of the RPC layer and the result type every handler returns. -/

namespace Vgi

inductive ErrorKind where
  | valueError
  | typeError
  | runtimeError
  | protocolError
  | methodNotImplemented
  | transportError
  | authUnavailable
  | authError
deriving DecidableEq

inductive Code where
  | unknown
  | invalidArgument
  | notFound
  | unimplemented
deriving DecidableEq

structure RpcError where
  kind : ErrorKind
  message : String
  code : Code := .unknown
  retryAfterSeconds : Option Nat := none
deriving DecidableEq

abbrev Result (α : Type) := Except RpcError α

def valueError (message : String) : RpcError := { kind := .valueError, message }

def typeError (message : String) : RpcError := { kind := .typeError, message }

def runtimeError (message : String) : RpcError := { kind := .runtimeError, message }

/-- The other side, or the caller, does not follow the protocol. -/
def protocolError (message : String) : RpcError := { kind := .protocolError, message }

/-- A credential was refused, or could not be had. -/
def authError (message : String) : RpcError := { kind := .authError, message }

def methodNotImplemented (message : String) : RpcError := { kind := .methodNotImplemented, message }

/-- A bad argument: a value outside its allowed range or set. -/
def invalidArgument (message : String) : RpcError :=
  { valueError message with code := .invalidArgument }

def notFound (message : String) : RpcError := { valueError message with code := .notFound }

end Vgi
