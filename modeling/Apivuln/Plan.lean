import Apivuln.Exec

/-!
# Plans and outputs of an HTTP/1 step

The resolved plan the runner is built with (`Http1PlanOutput`) and the records
it fills in (`Http1Output` with its request, response and error). Byte strings
(`MaybeUtf8`, `Vec<u8>`) are `Bytes`; instants and durations are natural
numbers on one monotone clock.
-/

namespace Apivuln

/-- The parts of `url::Url` the runner reads: `path()` and `query()`. -/
structure Url where
  path : Bytes
  query : Option Bytes
deriving DecidableEq, Repr

inductive AddContentLength where
  | never
  | always
  | auto
deriving DecidableEq, Repr

/-- One planned pause: how long, and at which byte offset of its phase. -/
structure PausePoint where
  duration : Nat
  offset : Option Int
deriving DecidableEq, Repr

structure PausePhase where
  start : List PausePoint
  «end» : List PausePoint
deriving DecidableEq, Repr

structure Http1PlanPauseOutput where
  requestHeaders : PausePhase
  requestBody : PausePhase
  responseHeaders : PausePhase
  responseBody : PausePhase
deriving DecidableEq, Repr

structure Http1PlanOutput where
  url : Url
  method : Option Bytes
  versionString : Option Bytes
  addContentLength : AddContentLength
  headers : List (Bytes × Bytes)
  body : Bytes
  pause : Http1PlanPauseOutput
deriving DecidableEq, Repr

structure Http1RequestOutput where
  url : Url
  headers : List (Bytes × Bytes)
  method : Option Bytes
  versionString : Option Bytes
  body : Bytes
  duration : Nat
  bodyDuration : Option Nat
  timeToFirstByte : Option Nat
deriving DecidableEq, Repr

structure Http1Response where
  protocol : Option Bytes
  statusCode : Option Nat
  headers : Option (List (Bytes × Bytes))
  statusReason : Option Bytes
  body : Option Bytes
  duration : Nat
  headerDuration : Option Nat
  timeToFirstByte : Option Nat
deriving DecidableEq, Repr

structure Http1Error where
  kind : String
  message : String
deriving DecidableEq, Repr

structure Http1Output where
  request : Option Http1RequestOutput
  response : Option Http1Response
  error : Option Http1Error
  duration : Nat
  plan : Http1PlanOutput
deriving DecidableEq, Repr

end Apivuln
