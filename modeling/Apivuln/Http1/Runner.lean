import Apivuln.Http1.Header

/-!
# The HTTP/1 runner and its world

`Http1Runner` owns its transport from `new` to `finish`; every state but
`Invalid` holds it. The transport's behaviour is the environment's: the reply
to each poll comes from a script (`Env`), its incoming bytes are a stream, and
the bytes it accepts are logged in `sent`. `Instant::now()` reads the `ticks`-th
reading of a clock. A script that runs out is a transport that stays pending.
-/

namespace Apivuln.Http1

/-- `PauseSpec`: a pause group and the offset its byte offsets count from. -/
structure PauseSpec where
  plan : List PausePoint
  groupOffset : Nat
deriving DecidableEq, Repr

/-- `PauseStream<T>` with the pause groups of its write and read sides; its timers
and recorded pauses are not modelled. -/
structure PauseStream (τ : Type) where
  inner : τ
  writes : List PauseSpec
  reads : List PauseSpec

def PauseStream.reset {τ : Type} (p : PauseStream τ) (writes reads : List PauseSpec) :
    PauseStream τ :=
  { p with writes := writes, reads := reads }

inductive State (τ : Type) where
  | pending (header : Bytes) (transport : τ)
  | startFailed (transport : τ)
  | sendingHeader (startTime : Nat) (transport : PauseStream τ)
  | sendingBody (startTime : Nat) (transport : PauseStream τ)
  | receivingHeader (startTime : Nat) (transport : PauseStream τ)
  | receivingBody (startTime : Nat) (transport : PauseStream τ)
  | complete (transport : τ)
  | invalid

structure Http1Runner (τ : Type) where
  out : Http1Output
  state : State τ
  reqHeaderStartTime : Option Nat
  reqBodyStartTime : Option Nat
  reqEndTime : Option Nat
  respStartTime : Option Nat
  respHeaderEndTime : Option Nat
  firstRead : Option Nat
  endTime : Option Nat
  respHeaderBuf : Bytes
  reqBodyBuf : Bytes
  respBodyBuf : Bytes

variable {τ : Type}

def State.Sending : State τ → Prop
  | .sendingHeader _ _ | .sendingBody _ _ => True
  | _ => False

theorem State.sending_iff {s : State τ} :
    s.Sending ↔ ∃ t p, s = .sendingHeader t p ∨ s = .sendingBody t p := by
  cases s <;> simp [State.Sending]

def State.Receiving : State τ → Prop
  | .receivingHeader _ _ | .receivingBody _ _ => True
  | _ => False

def State.inFlight : State τ → Option (Nat × τ)
  | .sendingHeader s p | .sendingBody s p | .receivingHeader s p | .receivingBody s p =>
    some (s, p.inner)
  | _ => none

theorem State.Sending.not_receiving {s : State τ} (h : s.Sending) : ¬ s.Receiving := by
  cases s <;> simp_all [State.Sending, State.Receiving]

def new (transport : τ) (plan : Http1PlanOutput) : Http1Runner τ where
  state := .pending (computeHeader plan) transport
  out := { request := none, response := none, error := none, duration := 0, plan := plan }
  reqHeaderStartTime := none
  reqBodyStartTime := none
  reqEndTime := none
  respStartTime := none
  respHeaderEndTime := none
  firstRead := none
  endTime := none
  respHeaderBuf := []
  reqBodyBuf := []
  respBodyBuf := []

@[simp] theorem new_state (transport : τ) (plan : Http1PlanOutput) :
    (new transport plan).state = .pending (computeHeader plan) transport := rfl

@[simp] theorem new_out (transport : τ) (plan : Http1PlanOutput) :
    (new transport plan).out =
      { request := none, response := none, error := none, duration := 0, plan := plan } := rfl

/-- A transport's answer to `poll_write`: pending, `Ready(Ok(min n len))`, or an error. -/
inductive WriteReply where
  | pending
  | accept (n : Nat)
  | fail (e : IoError)

/-- A transport's answer to `poll_flush` or `poll_shutdown`. -/
inductive FlushReply where
  | pending
  | done
  | fail (e : IoError)

/-- A transport's answer to `poll_read`: pending, up to `n` bytes of its stream (none at its
end, or when the caller's buffer is full), or an error. -/
inductive ReadReply where
  | pending
  | data (n : Nat)
  | fail (e : IoError)

structure Env where
  clock : Nat → Nat
  ticks : Nat
  started : Except String Unit
  writes : List WriteReply
  flushes : List FlushReply
  shutdowns : List FlushReply
  reads : List ReadReply
  incoming : Bytes
  /-- The spare capacity `read_to_end` offers when its vector holds `n` bytes. -/
  spare : Nat → Nat
  sent : Bytes

structure World (τ : Type) where
  runner : Http1Runner τ
  env : Env

abbrev M (τ : Type) := Exec (World τ)

def getRunner : M τ (Http1Runner τ) := fun w => .ret w.runner w

def modifyRunner (f : Http1Runner τ → Http1Runner τ) : M τ Unit :=
  fun w => .ret () { w with runner := f w.runner }

def setState (s : State τ) : M τ Unit := modifyRunner fun r => { r with state := s }

def modifyOut (f : Http1Output → Http1Output) : M τ Unit :=
  modifyRunner fun r => { r with out := f r.out }

/-- `std::mem::replace(&mut self.state, State::Invalid)`. -/
def takeState : M τ (State τ) :=
  fun w => .ret w.runner.state { w with runner := { w.runner with state := .invalid } }

/-- `Instant::now()`. -/
def now : M τ Nat :=
  fun w => .ret (w.env.clock w.env.ticks) { w with env := { w.env with ticks := w.env.ticks + 1 } }

def transportStart : M τ (Except String Unit) := fun w => .ret w.env.started w

def transportWrite (buf : Bytes) : M τ (Poll (Except IoError Nat)) := fun w =>
  match w.env.writes with
  | [] => .ret .pending w
  | .pending :: rest => .ret .pending { w with env := { w.env with writes := rest } }
  | .accept n :: rest =>
    .ret (.ready (.ok (min n buf.length)))
      { w with env := { w.env with writes := rest, sent := w.env.sent ++ buf.take (min n buf.length) } }
  | .fail e :: rest => .ret (.ready (.error e)) { w with env := { w.env with writes := rest } }

def bytesWritten : Poll (Except IoError Nat) → Nat
  | .ready (.ok n) => n
  | _ => 0

theorem transportWrite_ret {buf : Bytes} {w w₁ : World τ} {poll : Poll (Except IoError Nat)}
    (h : transportWrite buf w = .ret poll w₁) :
    w₁.runner = w.runner ∧ w₁.env.sent = w.env.sent ++ buf.take (bytesWritten poll) := by
  simp only [transportWrite] at h
  split at h <;> cases h <;> simp [bytesWritten]

def FlushReply.poll : FlushReply → Poll (Except IoError Unit)
  | .pending => .pending
  | .done => .ready (.ok ())
  | .fail e => .ready (.error e)

def transportFlush : M τ (Poll (Except IoError Unit)) := fun w =>
  match w.env.flushes with
  | [] => .ret .pending w
  | r :: rest => .ret r.poll { w with env := { w.env with flushes := rest } }

def transportShutdown : M τ (Poll (Except IoError Unit)) := fun w =>
  match w.env.shutdowns with
  | [] => .ret .pending w
  | r :: rest => .ret r.poll { w with env := { w.env with shutdowns := rest } }

def transportRead (cap : Nat) : M τ (Poll (Except IoError Bytes)) := fun w =>
  match w.env.reads with
  | [] => .ret .pending w
  | .pending :: rest => .ret .pending { w with env := { w.env with reads := rest } }
  | .data n :: rest =>
    .ret (.ready (.ok (w.env.incoming.take (min n cap))))
      { w with env := { w.env with reads := rest, incoming := w.env.incoming.drop (min n cap) } }
  | .fail e :: rest => .ret (.ready (.error e)) { w with env := { w.env with reads := rest } }

theorem transportRead_ret {n : Nat} {u u₁ : World τ} {p : Poll (Except IoError Bytes)}
    (h : transportRead n u = .ret p u₁) :
    u₁.runner = u.runner ∧ ∀ bs, p = .ready (.ok bs) → bs.length ≤ n := by
  simp only [transportRead] at h
  split at h <;> cases h <;> refine ⟨rfl, fun bs hb => ?_⟩ <;> cases hb
  simp only [List.length_take]; omega

theorem transportRead_ne_panic {n : Nat} {u u' : World τ} {m : String} :
    transportRead n u ≠ .panic m u' := by
  simp only [transportRead]; split <;> simp

end Apivuln.Http1
