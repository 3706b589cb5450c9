/-
The three-part diagnostic (`core/src/problem.rs`) and the JSON-RPC error it is sent as
(`control/jsonrpc.rs`, `control/error_map.rs`).
-/

import Mathlib.Logic.Basic

namespace Bookrack

/-- A character as `{:?}` writes it. Past ASCII, where the characters that cannot be printed are escaped
too, it is left as it is. -/
def debugChar (c : Char) : String :=
  if c = '\x00' then "\\0"
  else if c = '\t' then "\\t"
  else if c = '\r' then "\\r"
  else if c = '\n' then "\\n"
  else if c = '\\' ∨ c = '\x22' then String.ofList ['\\', c]
  else if c.toNat < 32 ∨ c.toNat = 127 then
    "\\u\x7b" ++ String.ofList (Nat.toDigits 16 c.toNat) ++ "\x7d"
  else c.toString

/-- `{:?}` of a string. -/
def debugText (text : String) : String := "\"" ++ String.join (text.toList.map debugChar) ++ "\""

/-! ### Diagnostics -/

/-- The detail / hint / retryable triple of a diagnostic. -/
structure ProblemData where
  detail : Option String
  hint : Option String
  retryable : Bool
  deriving DecidableEq, Repr

/-- A rendered three-part diagnostic. -/
structure Problem where
  summary : String
  data : ProblemData
  deriving DecidableEq, Repr

/-- `Problem::new`: only the summary line. -/
def Problem.new (summary : String) : Problem where
  summary := summary
  data := { detail := none, hint := none, retryable := false }

/-- `Problem::detail`. -/
def Problem.detail (problem : Problem) (detail : String) : Problem :=
  { problem with data := { problem.data with detail := some detail } }

/-- `Problem::hint`. -/
def Problem.hint (problem : Problem) (hint : String) : Problem :=
  { problem with data := { problem.data with hint := some hint } }

/-! ### JSON-RPC errors -/

/-- `INVALID_PARAMS`. -/
def invalidParams : Int := -32602

/-- `INTERNAL_ERROR`. -/
def internalError : Int := -32603

/-- `INVALID_LIBRARY`. -/
def invalidLibrary : Int := -32010

/-- `JOB_NOT_FOUND`. -/
def jobNotFound : Int := -32011

/-- The error envelope of a refused call. -/
structure RpcError where
  code : Int
  message : String
  data : Option ProblemData
  deriving DecidableEq, Repr

/-- `RpcError::new`: no `data`. -/
def RpcError.new (code : Int) (message : String) : RpcError where
  code := code
  message := message
  data := none

/-- `rpc_from_problem`: the summary into `message`, the rest into `data`. -/
def rpcFromProblem (code : Int) (problem : Problem) : RpcError where
  code := code
  message := problem.summary
  data := some problem.data

end Bookrack
