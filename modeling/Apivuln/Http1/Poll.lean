import Apivuln.Http1.Runner

/-!
# The runner's polls, `receive_header`, `complete` and `finish`

`poll_write`, `poll_flush` and `poll_shutdown` forward to the transport in the
two sending states and panic in every other. `poll_read` takes the state out
under a scope guard: in `ReceivingHeader` it forwards the read and records the
bytes as body, and in `ReceivingBody` it runs the header loop, which calls
`receive_header` while the runner's state is still `Invalid`.
-/

namespace Apivuln.Http1

variable {τ : Type}

inductive ParseStatus where
  | incomplete
  | complete (bodyStart : Nat)
deriving DecidableEq, Repr

/-- The fields of `httparse::Response` after a successful `parse`, and its status. -/
structure ParsedResponse where
  version : Option Nat
  code : Option Nat
  reason : Option Bytes
  headers : List (Bytes × Bytes)
  status : ParseStatus
deriving DecidableEq, Repr

/-- `httparse::Response::parse` on the accumulated bytes, or its error's text. -/
abbrev Parser := Bytes → Except String ParsedResponse

/-- `format!("HTTP/1.{}", v)` -/
def protocolName (v : Nat) : Bytes := [72, 84, 84, 80, 47, 49, 46] ++ decimal v

/-- `if self.<stamp>.is_none() { self.<stamp> = Some(Instant::now()) }`: a timestamp set by the
first call that gets there. -/
def stampOnce (stamp : Http1Runner τ → Option Nat) (set : Nat → Http1Runner τ → Http1Runner τ) :
    M τ Unit := do
  if (stamp (← getRunner)).isNone then
    let t ← now
    modifyRunner (set t)

theorem stampOnce_ret {stamp : Http1Runner τ → Option Nat}
    {set : Nat → Http1Runner τ → Http1Runner τ} {w w' : World τ} {x : Unit}
    (h : stampOnce stamp set w = .ret x w') :
    w'.runner = w.runner ∨ ∃ t, w'.runner = set t w.runner := by
  simp only [stampOnce, Exec.bind_apply, getRunner] at h
  split at h
  · cases h; exact .inr ⟨_, rfl⟩
  · cases h; exact .inl rfl

theorem stampOnce_ne_panic {stamp : Http1Runner τ → Option Nat}
    {set : Nat → Http1Runner τ → Http1Runner τ} {w w' : World τ} {m : String} :
    stampOnce stamp set w ≠ .panic m w' := by
  simp only [stampOnce, Exec.bind_apply, getRunner]
  split <;> simp [Exec.bind_apply, now, modifyRunner]

def recordWrite (buf : Bytes) : M τ Unit := do
  stampOnce (·.reqBodyStartTime) fun t r => { r with reqBodyStartTime := some t }
  modifyRunner fun r => { r with reqBodyBuf := r.reqBodyBuf ++ buf }

theorem recordWrite_ret (buf : Bytes) (w : World τ) :
    recordWrite buf w = .ret () (recordWrite buf w).world := by
  cases hb : w.runner.reqBodyStartTime <;>
    simp [recordWrite, stampOnce, Exec.bind_apply, getRunner, hb, now, modifyRunner]

theorem recordWrite_stamped (buf : Bytes) (w : World τ) :
    ((recordWrite buf w).world.runner.reqBodyStartTime).isSome := by
  cases hb : w.runner.reqBodyStartTime <;>
    simp [recordWrite, stampOnce, Exec.bind_apply, getRunner, hb, now, modifyRunner]

theorem recordWrite_world (buf : Bytes) (w : World τ) :
    ∃ rt ticks, (recordWrite buf w).world =
      { runner := { w.runner with reqBodyBuf := w.runner.reqBodyBuf ++ buf, reqBodyStartTime := rt },
        env := { w.env with ticks := ticks } } := by
  cases hb : w.runner.reqBodyStartTime <;>
    simp only [recordWrite, stampOnce, Exec.bind_apply, getRunner, hb, now, modifyRunner,
      Option.isNone_none, Option.isNone_some, if_true, if_false, Bool.false_eq_true,
      Exec.pure_apply, Outcome.world_ret] <;>
    exact ⟨_, _, rfl⟩

def pollWrite (buf : Bytes) : M τ (Poll (Except IoError Nat)) := do
  match (← getRunner).state with
  | .sendingHeader _ _ | .sendingBody _ _ =>
    let poll ← transportWrite buf
    if poll.isReady then recordWrite buf
    pure poll
  | _ => Exec.panic "explicit panic"

theorem pollWrite_idle (buf : Bytes) {w : World τ} (hs : ¬ w.runner.state.Sending) :
    pollWrite buf w = .panic "explicit panic" w := by
  cases he : w.runner.state <;> simp only [State.Sending, he, not_true_eq_false] at hs <;>
    simp only [pollWrite, Exec.bind_apply, getRunner, he, Exec.panic_apply]

theorem pollWrite_sending (buf : Bytes) {w : World τ} (hs : w.runner.state.Sending) :
    ∃ poll w₁, transportWrite buf w = .ret poll w₁ ∧
      pollWrite buf w = .ret poll (if poll.isReady then (recordWrite buf w₁).world else w₁) := by
  obtain ⟨poll, w₁, htw⟩ : ∃ poll w₁, transportWrite buf w = .ret poll w₁ := by
    simp only [transportWrite]; split <;> exact ⟨_, _, rfl⟩
  refine ⟨poll, w₁, htw, ?_⟩
  obtain ⟨t, p, he | he⟩ := State.sending_iff.mp hs <;>
  · simp only [pollWrite, Exec.bind_apply, getRunner, he, htw]
    split
    · rw [Exec.bind_apply, recordWrite_ret]; rfl
    · rfl

theorem pollWrite_pending {w : World τ} (buf : Bytes) {rest : List WriteReply}
    (hs : w.runner.state.Sending) (hw : w.env.writes = .pending :: rest) :
    pollWrite buf w = .ret .pending { w with env := { w.env with writes := rest } } := by
  obtain ⟨poll, w₁, htw, hpw⟩ := pollWrite_sending buf hs
  simp only [transportWrite, hw] at htw
  cases htw
  exact hpw

theorem pollWrite_accept {w : World τ} (buf : Bytes) {n : Nat} {rest : List WriteReply}
    (hs : w.runner.state.Sending) (hw : w.env.writes = .accept n :: rest) :
    ∃ rt ticks, pollWrite buf w = .ret (.ready (.ok (min n buf.length)))
      { runner := { w.runner with reqBodyBuf := w.runner.reqBodyBuf ++ buf, reqBodyStartTime := rt },
        env := { w.env with writes := rest, ticks := ticks,
                            sent := w.env.sent ++ buf.take (min n buf.length) } } := by
  obtain ⟨poll, w₁, htw, hpw⟩ := pollWrite_sending buf hs
  simp only [transportWrite, hw] at htw
  cases htw
  obtain ⟨rt, t, hrw⟩ := recordWrite_world buf
    { w with env := { w.env with writes := rest, sent := w.env.sent ++ buf.take (min n buf.length) } }
  exact ⟨rt, t, by rw [hpw, hrw]; rfl⟩

theorem pollWrite_fail {w : World τ} (buf : Bytes) {e : IoError} {rest : List WriteReply}
    (hs : w.runner.state.Sending) (hw : w.env.writes = .fail e :: rest) :
    ∃ rt ticks, pollWrite buf w = .ret (.ready (.error e))
      { runner := { w.runner with reqBodyBuf := w.runner.reqBodyBuf ++ buf, reqBodyStartTime := rt },
        env := { w.env with writes := rest, ticks := ticks } } := by
  obtain ⟨poll, w₁, htw, hpw⟩ := pollWrite_sending buf hs
  simp only [transportWrite, hw] at htw
  cases htw
  obtain ⟨rt, t, hrw⟩ := recordWrite_world buf { w with env := { w.env with writes := rest } }
  exact ⟨rt, t, by rw [hpw, hrw]; rfl⟩

structure WriteStep (buf : Bytes) (poll : Poll (Except IoError Nat)) (w w' : World τ) : Prop where
  state : w'.runner.state = w.runner.state
  out : w'.runner.out = w.runner.out
  sent : w'.env.sent = w.env.sent ++ buf.take (bytesWritten poll)
  recorded : w'.runner.reqBodyBuf = w.runner.reqBodyBuf ++ if poll.isReady then buf else []

theorem pollWrite_step (buf : Bytes) {w : World τ} (hs : w.runner.state.Sending) :
    ∃ poll w', pollWrite buf w = .ret poll w' ∧ WriteStep buf poll w w' := by
  obtain ⟨poll, w₁, htw, hpw⟩ := pollWrite_sending buf hs
  obtain ⟨hr, hsent⟩ := transportWrite_ret htw
  refine ⟨poll, _, hpw, ?_⟩
  by_cases hp : poll.isReady
  · obtain ⟨rt, t, hrw⟩ := recordWrite_world buf w₁
    simp only [hp, if_true, hrw]
    exact ⟨by rw [← hr], by rw [← hr], hsent, by rw [← hr, if_pos hp]⟩
  · simp only [hp, if_false, Bool.false_eq_true]
    exact ⟨by rw [hr], by rw [hr], hsent, by rw [hr, if_neg hp, List.append_nil]⟩

theorem pollWrite_ready_stamped {buf : Bytes} {w w' : World τ} {r : Except IoError Nat}
    (h : pollWrite buf w = .ret (.ready r) w') : w'.runner.reqBodyStartTime.isSome := by
  by_cases hs : w.runner.state.Sending
  · obtain ⟨poll, w₁, -, hp⟩ := pollWrite_sending buf hs
    rw [hp] at h
    cases h
    exact recordWrite_stamped _ _
  · rw [pollWrite_idle buf hs] at h; cases h

def pollFlush : M τ (Poll (Except IoError Unit)) := do
  match (← getRunner).state with
  | .sendingHeader _ _ | .sendingBody _ _ => transportFlush
  | _ => Exec.panic "explicit panic"

theorem pollFlush_sending {w : World τ} (hs : w.runner.state.Sending) :
    pollFlush w = transportFlush w := by
  obtain ⟨t, p, h | h⟩ := State.sending_iff.mp hs <;> simp [pollFlush, Exec.bind_apply, getRunner, h]

def pollShutdown : M τ (Poll (Except IoError Unit)) := do
  match (← getRunner).state with
  | .sendingHeader _ _ | .sendingBody _ _ =>
    let poll ← transportShutdown
    if poll.isReady then
      let t ← now
      modifyRunner fun r => { r with endTime := some t }
    pure poll
  | _ => Exec.panic "explicit panic"

/-- The response `receive_header` records from a successful parse. -/
def parsedResponse (resp : ParsedResponse) (ttfb : Option Nat) : Http1Response where
  protocol := resp.version.map protocolName
  statusCode := resp.code
  headers := resp.reason.map fun _ => resp.headers
  statusReason := resp.reason
  body := none
  duration := 0
  headerDuration := none
  timeToFirstByte := ttfb

/-- `first_read - resp_start_time.expect(..)`, taken only when `first_read` is set. -/
def timeToFirstByte : M τ (Option Nat) := do
  let r ← getRunner
  match r.firstRead, r.respStartTime with
  | none, _ => pure none
  | some first, some start => pure (some (first - start))
  | some _, none => Exec.panic "response start time should be set before header is processed"

theorem timeToFirstByte_ret_or_panic (w : World τ) :
    (∃ x, timeToFirstByte w = .ret x w) ∨
      timeToFirstByte w = .panic "response start time should be set before header is processed" w := by
  cases hf : w.runner.firstRead <;> cases hst : w.runner.respStartTime <;>
    simp [timeToFirstByte, getRunner, Exec.bind_apply, hf, hst]

/-- The `Complete(body_start)` branch of `receive_header`. -/
def headerComplete (bodyStart completeTime : Nat) : M τ (Poll (Except IoError Bytes)) := do
  match ← takeState with
  | .receivingHeader startTime transport =>
    let plan := (← getRunner).out.plan
    setState (.receivingBody startTime (transport.reset [] [⟨plan.pause.responseBody.start, 0⟩]))
    modifyOut fun o => { o with response := o.response.map fun resp =>
      { resp with headerDuration := some (completeTime - startTime) } }
    let buf := (← getRunner).respHeaderBuf
    if buf.length < bodyStart then Exec.panic "cannot advance past remaining"
    else
      modifyRunner fun r => { r with respHeaderBuf := [] }
      pure (.ready (.ok (buf.drop bodyStart)))
  | _ => Exec.panic "header recieved in incorrect state: Invalid"

theorem headerComplete_taken {w : World τ} (b t : Nat) (hs : w.runner.state = .invalid) :
    headerComplete b t w = .panic "header recieved in incorrect state: Invalid" w := by
  simp only [headerComplete, Exec.bind_apply, takeState, hs, Exec.panic_apply]
  rw [← hs]

def receiveHeader (parse : Parser) : M τ (Poll (Except IoError Bytes)) := do
  match parse (← getRunner).respHeaderBuf with
  | .error e => pure (.ready (.error ⟨.other, e⟩))
  | .ok resp =>
    let completeTime ← now
    let ttfb ← timeToFirstByte
    modifyOut fun o => { o with response := some (parsedResponse resp ttfb) }
    match resp.status with
    | .incomplete => pure .pending
    | .complete bodyStart => headerComplete bodyStart completeTime

theorem receiveHeader_taken (parse : Parser) {u : World τ} (hs : u.runner.state = .invalid) :
    (∃ e, receiveHeader parse u = .ret (.ready (.error ⟨.other, e⟩)) u) ∨
    ∃ r u', parse u.runner.respHeaderBuf = .ok r ∧
      (receiveHeader parse u =
          .panic "response start time should be set before header is processed" u' ∨
        r.status = .incomplete ∧ receiveHeader parse u = .ret .pending u' ∨
        ∃ b, r.status = .complete b ∧
          receiveHeader parse u = .panic "header recieved in incorrect state: Invalid" u') ∧
      u'.runner.respHeaderBuf = u.runner.respHeaderBuf ∧ u'.runner.state = .invalid := by
  cases hp : parse u.runner.respHeaderBuf with
  | error e => exact .inl ⟨e, by simp only [receiveHeader, Exec.bind_apply, getRunner, hp]; rfl⟩
  | ok r =>
    refine .inr ⟨r, ?_⟩
    simp only [receiveHeader, Exec.bind_apply, getRunner, hp, now]
    rcases timeToFirstByte_ret_or_panic { u with env := { u.env with ticks := u.env.ticks + 1 } } with
      ⟨x, hx⟩ | hx <;> rw [hx]
    · cases hr : r.status with
      | incomplete => exact ⟨_, trivial, .inr (.inl ⟨rfl, rfl⟩), rfl, hs⟩
      | complete b =>
        exact ⟨_, trivial, .inr (.inr ⟨b, rfl, by
          simp only [modifyOut, modifyRunner, Exec.bind_apply]; exact headerComplete_taken _ _ hs⟩),
          by rfl, by exact hs⟩
    · exact ⟨_, trivial, .inl rfl, rfl, hs⟩

/-- The header loop of `poll_read` in `ReceivingBody`. Each pass takes one reply of the
transport, so `fuel` = the replies left suffices: with none left the transport is pending. -/
def headerLoop (parse : Parser) (cap : Nat) : Nat → M τ (Poll (Except IoError Bytes))
  | 0 => pure .pending
  | fuel + 1 => do
    match ← transportRead (cap + 1) with
    | .pending => pure .pending
    | .ready (.error e) => pure (.ready (.error e))
    | .ready (.ok bs) =>
      modifyRunner fun r => { r with respHeaderBuf := r.respHeaderBuf ++ bs }
      if bs.isEmpty then pure (.ready (.error ⟨.unexpectedEof, "header incomplete"⟩))
      else
        stampOnce (·.firstRead) fun t r => { r with firstRead := some t }
        match ← receiveHeader parse with
        | .pending => headerLoop parse cap fuel
        | .ready (.error e) => pure (.ready (.error e))
        | .ready (.ok remaining) =>
          let t ← now
          modifyRunner fun r =>
            { r with respHeaderEndTime := some t, respBodyBuf := r.respBodyBuf ++ remaining }
          if cap < remaining.length then
            Exec.panic "assertion failed: self.remaining_mut() >= src.remaining()"
          else pure (.ready (.ok remaining))

theorem headerLoop_succ_panic (parse : Parser) (cap fuel : Nat) {u u' : World τ} {m : String}
    (h : headerLoop parse cap (fuel + 1) u = .panic m u') :
    ∃ bs u₁, 0 < bs.length ∧ bs.length ≤ cap + 1 ∧
      u₁.runner.respHeaderBuf = u.runner.respHeaderBuf ++ bs ∧ u₁.runner.state = u.runner.state ∧
      (receiveHeader parse u₁ = .panic m u' ∨
        (∃ u₂, receiveHeader parse u₁ = .ret .pending u₂ ∧ headerLoop parse cap fuel u₂ = .panic m u') ∨
        ∃ rem u₂, receiveHeader parse u₁ = .ret (.ready (.ok rem)) u₂) := by
  rcases Exec.bind_eq_panic h with h | ⟨p, u₀, hp, h⟩
  · exact absurd h transportRead_ne_panic
  obtain ⟨hu₀, hlen⟩ := transportRead_ret hp
  rcases p with (e | bs) | _
  · cases h
  · simp only [Exec.bind_apply, modifyRunner] at h
    split at h
    · cases h
    rename_i hne
    rcases Exec.bind_eq_panic h with h | ⟨_, u₁, hst, h⟩
    · exact absurd h stampOnce_ne_panic
    have hu₁ : u₁.runner.respHeaderBuf = u.runner.respHeaderBuf ++ bs ∧
        u₁.runner.state = u.runner.state := by
      rcases stampOnce_ret hst with h₁ | ⟨_, h₁⟩ <;> rw [h₁, ← hu₀] <;> exact ⟨rfl, rfl⟩
    refine ⟨bs, u₁, List.length_pos.mpr (by simpa using hne), hlen bs rfl, hu₁.1, hu₁.2, ?_⟩
    rcases Exec.bind_eq_panic h with h | ⟨a, u₂, h', h⟩
    · exact .inl h
    rcases a with (e | rem) | _
    · cases h
    · exact .inr (.inr ⟨rem, u₂, h'⟩)
    · exact .inr (.inl ⟨u₂, h', h⟩)
  · cases h

theorem headerLoop_taken (parse : Parser) (cap fuel : Nat) {u u' : World τ} {m : String}
    (hs : u.runner.state = .invalid) (h : headerLoop parse cap fuel u = .panic m u') :
    m = "response start time should be set before header is processed" ∨
    m = "header recieved in incorrect state: Invalid" ∧ ∃ prev c r b,
      u'.runner.respHeaderBuf = prev ++ c ∧ 0 < c.length ∧ c.length ≤ cap + 1 ∧
      u.runner.respHeaderBuf <+: prev ∧
      (prev = u.runner.respHeaderBuf ∨ ∃ r', parse prev = .ok r' ∧ r'.status = .incomplete) ∧
      parse (prev ++ c) = .ok r ∧ r.status = .complete b := by
  induction fuel generalizing u with
  | zero => simp [headerLoop] at h
  | succ fuel ih =>
    obtain ⟨bs, u₁, hpos, hlen, hbuf₁, hs₁, hrh⟩ := headerLoop_succ_panic parse cap fuel h
    rcases receiveHeader_taken parse (hs₁.trans hs) with ⟨e, he⟩ |
      ⟨r, u₂, hpr, (he | ⟨hk, he⟩ | ⟨b, hk, he⟩), hbuf₂, hs₂⟩ <;> rw [he] at hrh
    · simp at hrh
    · rcases hrh with hrh | ⟨_, hrh, -⟩ | ⟨_, _, hrh⟩ <;> cases hrh
      exact .inl rfl
    · rcases hrh with hrh | ⟨_, hrh, h⟩ | ⟨_, _, hrh⟩ <;> cases hrh
      rcases ih hs₂ h with hm | ⟨hm, prev, c, r', b, h₁, h₂, h₃, hpre, h₄, h₅⟩
      · exact .inl hm
      rw [hbuf₂, hbuf₁] at hpre h₄
      refine .inr ⟨hm, prev, c, r', b, h₁, h₂, h₃, (List.prefix_append _ _).trans hpre, .inr ?_, h₅⟩
      rcases h₄ with rfl | h₄
      · exact ⟨r, by rw [← hbuf₁]; exact hpr, hk⟩
      · exact h₄
    · rcases hrh with hrh | ⟨_, hrh, -⟩ | ⟨_, _, hrh⟩ <;> cases hrh
      exact .inr ⟨rfl, u.runner.respHeaderBuf, bs, r, b, hbuf₂.trans hbuf₁, hpos, hlen,
        List.prefix_refl _, .inl rfl, by rw [← hbuf₁]; exact hpr, hk⟩

/-- The arms of the `match` in `poll_read`, on the state taken out of the runner. -/
def readArm (parse : Parser) (cap : Nat) : State τ → M τ (Poll (Except IoError Bytes))
  | .receivingHeader _ _ => do
    let poll ← transportRead cap
    match poll with
    | .ready (.ok bs) => modifyRunner fun r => { r with respBodyBuf := r.respBodyBuf ++ bs }
    | _ => pure ()
    pure poll
  | .receivingBody _ _ => do
    stampOnce (·.respStartTime) fun t r => { r with respStartTime := some t }
    headerLoop parse cap (← Exec.get).env.reads.length
  | _ => Exec.panic "explicit panic"

/-- `poll_read` with a caller buffer of `cap` free bytes; the result carries the bytes it put. -/
def pollRead (parse : Parser) (cap : Nat) : M τ (Poll (Except IoError Bytes)) := do
  let state ← takeState
  Exec.scopeGuard (readArm parse cap state)
    fun w => { w with runner := { w.runner with state := state } }

theorem pollRead_idle (parse : Parser) (cap : Nat) {w : World τ} (hs : ¬ w.runner.state.Receiving) :
    pollRead parse cap w = .panic "explicit panic" w := by
  cases h : w.runner.state <;> simp only [State.Receiving, h, not_true_eq_false] at hs <;>
  · simp only [pollRead, Exec.bind_apply, takeState, h, readArm, Exec.panic_apply, Exec.scopeGuard]
    rw [← h]

theorem pollRead_panics (parse : Parser) (cap : Nat) {w w' : World τ} {m : String}
    (h : pollRead parse cap w = .panic m w') :
    m = "explicit panic" ∨ m = "response start time should be set before header is processed" ∨
    m = "header recieved in incorrect state: Invalid" ∧ ∃ prev c r b,
      w'.runner.respHeaderBuf = prev ++ c ∧ 0 < c.length ∧ c.length ≤ cap + 1 ∧
      w.runner.respHeaderBuf <+: prev ∧
      (prev = w.runner.respHeaderBuf ∨ ∃ r', parse prev = .ok r' ∧ r'.status = .incomplete) ∧
      parse (prev ++ c) = .ok r ∧ r.status = .complete b := by
  cases hs : w.runner.state with
  | receivingBody st ps =>
    simp only [pollRead, Exec.bind_apply, takeState, hs, readArm, Exec.scopeGuard] at h
    split at h <;> cases h
    rename_i u hu
    rcases Exec.bind_eq_panic hu with hu | ⟨_, u₁, hst, hu⟩
    · exact absurd hu stampOnce_ne_panic
    have hu₁ : u₁.runner.respHeaderBuf = w.runner.respHeaderBuf ∧ u₁.runner.state = .invalid := by
      rcases stampOnce_ret hst with h₁ | ⟨_, h₁⟩ <;> rw [h₁] <;> exact ⟨rfl, rfl⟩
    simp only [Exec.bind_apply, Exec.get_apply] at hu
    rcases headerLoop_taken parse cap _ hu₁.2 hu with hm | ⟨hm, rest⟩
    · exact .inr (.inl hm)
    · exact .inr (.inr ⟨hm, hu₁.1 ▸ rest⟩)
  | receivingHeader st ps =>
    simp only [pollRead, Exec.bind_apply, takeState, hs, readArm, Exec.scopeGuard] at h
    split at h <;> cases h
    rename_i u hu
    rcases Exec.bind_eq_panic hu with hu | ⟨p, u₁, -, hu⟩
    · exact absurd hu transportRead_ne_panic
    split at hu <;> simp [Exec.bind_apply, modifyRunner] at hu
  | _ =>
    rw [pollRead_idle parse cap (by rw [hs]; exact id)] at h
    cases h; exact .inl rfl

/-- The body of `complete` after it took a sending or receiving state. -/
def recordOutputs (startTime : Nat) (transport : τ) : M τ Unit := do
  let endTime ← match (← getRunner).endTime with
    | some t => pure t
    | none => now
  let r ← getRunner
  modifyOut fun o => { o with request := o.request.map fun req =>
    { req with
      duration := r.reqEndTime.getD endTime - startTime
      bodyDuration := r.reqBodyStartTime.map fun s => r.respStartTime.getD endTime - s
      timeToFirstByte := r.reqHeaderStartTime.map fun s => s - startTime
      body := r.reqBodyBuf } }
  match r.out.response with
  | none =>
    setState (.complete transport)
    modifyOut fun o => { o with duration := endTime - startTime }
  | some resp =>
    modifyOut fun o => { o with response := some { resp with body := some r.respBodyBuf } }
    match r.respStartTime with
    | none => Exec.panic "response start time should be recorded when response is set"
    | some respStart =>
      modifyOut fun o => { o with response := some { resp with
        body := some r.respBodyBuf
        duration := endTime - respStart
        headerDuration := r.respHeaderEndTime.map fun e => e - respStart } }
      setState (.complete transport)
      modifyOut fun o => { o with duration := endTime - startTime }

theorem recordOutputs_state (startTime : Nat) (t : τ) (w : World τ) :
    (recordOutputs startTime t w).world.runner.state = .complete t ∨
      (recordOutputs startTime t w).world.runner.state = w.runner.state := by
  cases he : w.runner.endTime <;> cases hresp : w.runner.out.response <;>
    cases hst : w.runner.respStartTime <;>
    simp only [recordOutputs, Exec.bind_apply, getRunner, now, he, hresp, hst, modifyOut,
      modifyRunner, setState, Exec.pure_apply, Exec.panic_apply, Outcome.world, true_or, or_true]

def complete : M τ Unit := do
  match ← takeState with
  | .complete t | .pending _ t | .startFailed t => setState (.complete t)
  | .sendingHeader s p | .sendingBody s p | .receivingHeader s p | .receivingBody s p =>
    recordOutputs s p.inner
  | .invalid => Exec.panic "explicit panic"

def finish : M τ (Http1Output × τ) := do
  complete
  let r ← getRunner
  match r.state with
  | .complete t => pure (r.out, t)
  | _ => Exec.panic "internal error: entered unreachable code"

def recordedOut (r : Http1Runner τ) (startTime e : Nat) : Http1Output :=
  { r.out with
    request := r.out.request.map fun req =>
      { req with
        duration := r.reqEndTime.getD e - startTime
        bodyDuration := r.reqBodyStartTime.map fun s => r.respStartTime.getD e - s
        timeToFirstByte := r.reqHeaderStartTime.map fun s => s - startTime
        body := r.reqBodyBuf }
    duration := e - startTime }

def endInstant (w : World τ) : Nat := w.runner.endTime.getD (w.env.clock w.env.ticks)

theorem recordOutputs_quiet (startTime : Nat) (t : τ) (w : World τ)
    (hn : w.runner.out.response = none) :
    ∃ ticks, w.env.ticks ≤ ticks ∧ recordOutputs startTime t w = .ret ()
      { runner := { w.runner with
          state := .complete t
          out := recordedOut w.runner startTime (endInstant w) }
        env := { w.env with ticks := ticks } } := by
  cases he : w.runner.endTime with
  | none =>
    refine ⟨w.env.ticks + 1, Nat.le_succ _, ?_⟩
    simp only [recordOutputs, Exec.bind_apply, getRunner, now, he, hn, modifyOut, modifyRunner,
      setState, Exec.pure_apply, Option.getD_none, recordedOut, endInstant]
  | some e =>
    refine ⟨w.env.ticks, le_rfl, ?_⟩
    simp only [recordOutputs, Exec.bind_apply, getRunner, he, hn, modifyOut, modifyRunner,
      setState, Exec.pure_apply, Option.getD_some, recordedOut, endInstant]

theorem complete_inFlight {w : World τ} {st : Nat} {t : τ}
    (hf : w.runner.state.inFlight = some (st, t)) :
    complete w = recordOutputs st t { w with runner := { w.runner with state := .invalid } } := by
  cases hs : w.runner.state <;> rw [hs] at hf <;> simp only [State.inFlight, reduceCtorEq,
    Option.some.injEq, Prod.mk.injEq] at hf <;> obtain ⟨rfl, rfl⟩ := hf <;>
    simp only [complete, Exec.bind_apply, takeState, hs]

theorem finish_inFlight {w : World τ} {st : Nat} {t : τ}
    (hf : w.runner.state.inFlight = some (st, t)) (hn : w.runner.out.response = none) :
    ∃ w', finish w = .ret (recordedOut w.runner st (endInstant w), t) w' := by
  obtain ⟨ticks, -, h⟩ :=
    recordOutputs_quiet st t { w with runner := { w.runner with state := .invalid } } hn
  exact ⟨_, by simp only [finish, Exec.bind_apply, complete_inFlight hf, h, getRunner]; rfl⟩

theorem finish_out {w w' : World τ} {o : Http1Output} {t : τ} (h : finish w = .ret (o, t) w') :
    ∃ w₁, complete w = .ret () w₁ ∧ o = w₁.runner.out := by
  cases hcw : complete w with
  | ret u w₁ =>
    simp only [finish, Exec.bind_apply, hcw, getRunner] at h
    refine ⟨w₁, rfl, ?_⟩
    cases hs : w₁.runner.state <;> simp [hs] at h
    exact h.1.1.symm
  | panic m w₁ => simp only [finish, Exec.bind_apply, hcw] at h; cases h
  | stall w₁ => simp only [finish, Exec.bind_apply, hcw] at h; cases h

theorem finish_error {w : World τ} (hn : w.runner.out.response = none)
    (hs : w.runner.state.Sending ∨ ∃ t, w.runner.state = .complete t) :
    ∃ o t w', finish w = .ret (o, t) w' ∧ o.error = w.runner.out.error := by
  rcases hs with hs | ⟨t, hs⟩
  · obtain ⟨st, ps, h | h⟩ := State.sending_iff.mp hs <;>
    · obtain ⟨w', hw⟩ := finish_inFlight (show _ = some (st, ps.inner) by simp [h, State.inFlight]) hn
      exact ⟨_, _, _, hw, rfl⟩
  · exact ⟨w.runner.out, t, _, by
      simp [finish, complete, Exec.bind_apply, takeState, hs, setState, modifyRunner, getRunner]
      rfl, rfl⟩

theorem complete_panics_invalid {w w' : World τ} {m : String} (hn : w.runner.out.response = none)
    (h : complete w = .panic m w') : m = "explicit panic" := by
  cases hs : w.runner.state with
  | sendingHeader st p | sendingBody st p | receivingHeader st p | receivingBody st p =>
    obtain ⟨_, -, he⟩ := recordOutputs_quiet st p.inner
      { w with runner := { w.runner with state := .invalid } } hn
    rw [complete_inFlight (show _ = some (st, p.inner) by simp [hs, State.inFlight]), he] at h
    cases h
  | invalid => simp only [complete, Exec.bind_apply, takeState, hs, Exec.panic_apply,
      Outcome.panic.injEq] at h; exact h.1.symm
  | _ => simp only [complete, Exec.bind_apply, takeState, hs, setState, modifyRunner] at h; cases h

end Apivuln.Http1
