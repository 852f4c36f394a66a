import Apivuln.Http1.Poll

/-!
# `start` and `execute`

The async methods run their futures to completion. Each `write_all`, `flush`
and `read_to_end` loop polls the runner until it is ready; a pending poll is
polled again, and when the transport has no reply left the future waits
forever. Every pass takes one reply, so the replies left are enough fuel.
-/

namespace Apivuln.Http1

variable {τ : Type}

def writeZero : IoError := ⟨.writeZero, "write zero"⟩

/-- `AsyncWriteExt::write_all` on the runner, and `write_all_buf` on the one-chunk header. -/
def writeAll : Nat → Bytes → M τ (Except IoError Unit)
  | _, [] => pure (.ok ())
  | 0, buf@(_ :: _) => do
    let _ ← pollWrite buf
    Exec.stall
  | fuel + 1, buf@(_ :: _) => do
    match ← pollWrite buf with
    | .pending => writeAll fuel buf
    | .ready (.error e) => pure (.error e)
    | .ready (.ok n) => if n = 0 then pure (.error writeZero) else writeAll fuel (buf.drop n)

def WriteReply.Progressing : WriteReply → Prop
  | .pending => True
  | .accept n => 0 < n
  | .fail _ => False

structure SentOn (e e' : Env) (bytes : Bytes) : Prop where
  sent : e'.sent = e.sent ++ bytes
  flushes : e'.flushes = e.flushes
  progressing : ∀ r ∈ e'.writes, r.Progressing

theorem SentOn.of_left {e₀ e e' : Env} {b : Bytes} (h : SentOn e e' b) (hs : e.sent = e₀.sent)
    (hf : e.flushes = e₀.flushes) : SentOn e₀ e' b :=
  ⟨hs ▸ h.sent, hf ▸ h.flushes, h.progressing⟩

theorem SentOn.trans {e₁ e₂ e₃ : Env} {b₁ b₂ : Bytes} (h₁ : SentOn e₁ e₂ b₁)
    (h₂ : SentOn e₂ e₃ b₂) : SentOn e₁ e₃ (b₁ ++ b₂) where
  sent := by rw [h₂.sent, h₁.sent, List.append_assoc]
  flushes := h₂.flushes.trans h₁.flushes
  progressing := h₂.progressing

structure AfterWrites (w w' : World τ) (bytes : Bytes) : Prop where
  env : SentOn w.env w'.env bytes
  state : w'.runner.state = w.runner.state
  out : w'.runner.out = w.runner.out

theorem AfterWrites.trans {w₁ w₂ w₃ : World τ} {b₁ b₂ : Bytes} (h₁ : AfterWrites w₁ w₂ b₁)
    (h₂ : AfterWrites w₂ w₃ b₂) : AfterWrites w₁ w₃ (b₁ ++ b₂) :=
  ⟨h₁.env.trans h₂.env, h₂.state.trans h₁.state, h₂.out.trans h₁.out⟩

theorem writeAll_step {b : UInt8} {bs : Bytes} {w : World τ} {r : WriteReply}
    {rest : List WriteReply} (hs : w.runner.state.Sending) (hws : w.env.writes = r :: rest)
    (hp : ∀ r ∈ w.env.writes, r.Progressing) :
    ∃ k w₁, writeAll (rest.length + 1) (b :: bs) w = writeAll rest.length ((b :: bs).drop k) w₁ ∧
      AfterWrites w w₁ ((b :: bs).take k) ∧ w₁.env.writes = rest := by
  have hhead : r.Progressing := hp r (by rw [hws]; exact .head _)
  have hrest : ∀ r ∈ rest, r.Progressing := fun r h => hp r (by rw [hws]; exact .tail _ h)
  cases r with
  | pending =>
    refine ⟨0, { w with env := { w.env with writes := rest } }, ?_, ⟨⟨by simp, rfl, hrest⟩, rfl, rfl⟩, rfl⟩
    simp only [writeAll, Exec.bind_apply, pollWrite_pending _ hs hws, List.drop_zero]
  | accept n =>
    have hk : min n (b :: bs).length ≠ 0 := by simp only [WriteReply.Progressing] at hhead; simp; omega
    obtain ⟨rt, t, hw₁⟩ := pollWrite_accept (b :: bs) hs hws
    let k := min n (b :: bs).length
    let w₁ : World τ :=
      { runner := { w.runner with reqBodyBuf := w.runner.reqBodyBuf ++ b :: bs, reqBodyStartTime := rt },
        env := { w.env with writes := rest, ticks := t, sent := w.env.sent ++ (b :: bs).take k } }
    refine ⟨k, w₁, ?_, ⟨⟨rfl, rfl, hrest⟩, rfl, rfl⟩, rfl⟩
    simp only [writeAll, Exec.bind_apply, hw₁, if_neg hk]
  | fail e => exact absurd hhead id

theorem writeAll_progress (buf : Bytes) (w : World τ) (hs : w.runner.state.Sending)
    (hp : ∀ r ∈ w.env.writes, r.Progressing) :
    (∃ w', writeAll w.env.writes.length buf w = .ret (.ok ()) w' ∧ AfterWrites w w' buf) ∨
    ∃ w' pre, writeAll w.env.writes.length buf w = .stall w' ∧ AfterWrites w w' pre ∧
      pre.length < buf.length ∧ pre <+: buf ∧ w'.env.writes = [] := by
  generalize hws : w.env.writes = ws at hp
  induction ws generalizing w buf with
  | nil =>
    cases buf with
    | nil => exact .inl ⟨w, by simp [writeAll], ⟨⟨by simp, rfl, hws ▸ hp⟩, rfl, rfl⟩⟩
    | cons b bs =>
      obtain ⟨t, p, h | h⟩ := State.sending_iff.mp hs <;>
      · refine .inr ⟨w, [], ?_, ⟨⟨by simp, rfl, hws ▸ hp⟩, rfl, rfl⟩, by simp,
          List.nil_prefix, hws⟩
        simp [writeAll, pollWrite, Exec.bind_apply, getRunner, transportWrite, Poll.isReady, h, hws]
  | cons r rest ih =>
    cases buf with
    | nil => exact .inl ⟨w, by simp [writeAll], ⟨⟨by simp, rfl, hws ▸ hp⟩, rfl, rfl⟩⟩
    | cons b bs =>
      obtain ⟨k, w₁, hx, step, hw₁⟩ := writeAll_step hs hws (hws ▸ hp)
      rcases ih ((b :: bs).drop k) w₁ (step.state ▸ hs) hw₁ (hw₁ ▸ step.env.progressing) with
        ⟨w', h', hw'⟩ | ⟨w', pre, h', hw', hl, hpre, he⟩
      · exact .inl ⟨w', hx ▸ h', by simpa only [List.take_append_drop] using step.trans hw'⟩
      · refine .inr ⟨w', (b :: bs).take k ++ pre, hx ▸ h', step.trans hw', ?_, ?_, he⟩
        · simp only [List.length_append, List.length_take, List.length_drop] at hl ⊢; omega
        · simpa only [List.take_append_drop] using
            (List.prefix_append_right_inj ((b :: bs).take k)).mpr hpre

theorem writeAll_ok_stamped : ∀ (fuel : Nat) (buf : Bytes) {w w' : World τ},
    (buf ≠ [] ∨ w.runner.reqBodyStartTime.isSome) → writeAll fuel buf w = .ret (.ok ()) w' →
    w'.runner.reqBodyStartTime.isSome
  | _, [], _, _, h, hw => by
    simp only [writeAll, Exec.pure_apply, Outcome.ret.injEq] at hw
    obtain ⟨-, rfl⟩ := hw
    exact h.resolve_left (by simp)
  | 0, _ :: _, w, _, _, hw => by
    simp only [writeAll, Exec.bind_apply] at hw
    cases hp : pollWrite _ w <;> rw [hp] at hw <;> cases hw
  | fuel + 1, b :: bs, w, w', _, hw => by
    simp only [writeAll, Exec.bind_apply] at hw
    cases hp : pollWrite (b :: bs) w with
    | ret poll w₁ =>
      rw [hp] at hw
      rcases poll with (_ | n) | _
      · cases hw
      · have h₁ := pollWrite_ready_stamped hp
        simp only at hw
        split at hw
        · cases hw
        · exact writeAll_ok_stamped fuel _ (.inr h₁) hw
      · exact writeAll_ok_stamped fuel _ (.inl (by simp)) hw
    | panic m w₁ => rw [hp] at hw; cases hw
    | stall w₁ => rw [hp] at hw; cases hw

theorem writeAll_sending (fuel : Nat) (buf : Bytes) {w : World τ} (hs : w.runner.state.Sending) :
    (∀ m w', writeAll fuel buf w ≠ .panic m w') ∧
    ∀ r w', writeAll fuel buf w = .ret r w' →
      w'.runner.state = w.runner.state ∧ w'.runner.out = w.runner.out ∧
      (r = .ok () → w'.env.sent = w.env.sent ++ buf) := by
  induction fuel generalizing buf w with
  | zero =>
    cases buf with
    | nil => exact ⟨by simp [writeAll], fun r w' h => by cases h; simp⟩
    | cons b bs =>
      obtain ⟨poll, w₁, hpw, -⟩ := pollWrite_step (b :: bs) hs
      simp only [writeAll, Exec.bind_apply, hpw, Exec.stall_apply]
      exact ⟨by simp, by simp⟩
  | succ fuel ih =>
    cases buf with
    | nil => exact ⟨by simp [writeAll], fun r w' h => by cases h; simp⟩
    | cons b bs =>
      obtain ⟨poll, w₁, hpw, step⟩ := pollWrite_step (b :: bs) hs
      have hs₁ : w₁.runner.state.Sending := step.state ▸ hs
      simp only [writeAll, Exec.bind_apply, hpw]
      rcases poll with (e | n) | _
      · exact ⟨by simp, fun r w' h => by cases h; exact ⟨step.state, step.out, nofun⟩⟩
      · dsimp only
        split
        · exact ⟨by simp, fun r w' h => by cases h; exact ⟨step.state, step.out, nofun⟩⟩
        · obtain ⟨hp, hr⟩ := ih ((b :: bs).drop n) hs₁
          refine ⟨hp, fun r w' h => ?_⟩
          obtain ⟨h₁, h₂, h₃⟩ := hr r w' h
          refine ⟨h₁.trans step.state, h₂.trans step.out, fun hr => ?_⟩
          rw [h₃ hr, step.sent, List.append_assoc, bytesWritten, List.take_append_drop]
      · obtain ⟨hp, hr⟩ := ih (b :: bs) hs₁
        refine ⟨hp, fun r w' h => ?_⟩
        obtain ⟨h₁, h₂, h₃⟩ := hr r w' h
        refine ⟨h₁.trans step.state, h₂.trans step.out, fun hr => ?_⟩
        simp [h₃ hr, step.sent, bytesWritten]

def writeAllAt (buf : Bytes) : M τ (Except IoError Unit) := do
  writeAll (← Exec.get).env.writes.length buf

theorem writeAll_progress_eq {fuel : Nat} {buf : Bytes} {w : World τ}
    {o : Outcome (World τ) (Except IoError Unit)} (h : writeAll fuel buf w = o)
    (hf : w.env.writes.length = fuel) (hs : w.runner.state.Sending)
    (hp : ∀ r ∈ w.env.writes, r.Progressing) :
    (∃ w', o = .ret (.ok ()) w' ∧ AfterWrites w w' buf) ∨
    ∃ w' pre, o = .stall w' ∧ AfterWrites w w' pre ∧ pre <+: buf ∧ w'.env.writes = [] := by
  subst h hf
  rcases writeAll_progress buf w hs hp with ⟨w', h', hw⟩ | ⟨w', pre, h', hw, -, hpre, he⟩
  · exact .inl ⟨w', h', hw⟩
  · exact .inr ⟨w', pre, h', hw, hpre, he⟩

/-- `AsyncWriteExt::flush` on the runner. -/
def flushLoop : Nat → M τ (Except IoError Unit)
  | 0 => do
    let _ ← pollFlush
    Exec.stall
  | fuel + 1 => do
    match ← pollFlush with
    | .pending => flushLoop fuel
    | .ready r => pure r

def flush : M τ (Except IoError Unit) := do
  flushLoop (← Exec.get).env.flushes.length

theorem flushLoop_sending (n : Nat) (w : World τ) (hs : w.runner.state.Sending) :
    (flushLoop n w).world.runner = w.runner ∧ (flushLoop n w).world.env.sent = w.env.sent ∧
      ∀ m w', flushLoop n w ≠ .panic m w' := by
  induction n generalizing w with
  | zero =>
    cases h : w.env.flushes <;>
      simp [flushLoop, Exec.bind_apply, pollFlush_sending hs, transportFlush, h, Outcome.world]
  | succ n ih =>
    cases h : w.env.flushes with
    | nil => simpa [flushLoop, Exec.bind_apply, pollFlush_sending hs, transportFlush, h] using ih w hs
    | cons r rest =>
      have := ih { w with env := { w.env with flushes := rest } } hs
      cases r <;> simp_all [flushLoop, Exec.bind_apply, pollFlush_sending hs, transportFlush,
        FlushReply.poll, Outcome.world]

theorem flushLoop_settles (w : World τ) (hs : w.runner.state.Sending)
    (hf : ∀ e, FlushReply.fail e ∉ w.env.flushes) :
    (∃ w', flushLoop w.env.flushes.length w = .ret (.ok ()) w' ∧ w'.runner = w.runner) ∨
    ∃ w', flushLoop w.env.flushes.length w = .stall w' ∧ w'.env.flushes = [] := by
  generalize hfs : w.env.flushes = fs at hf
  induction fs generalizing w with
  | nil => exact .inr ⟨w, by simp [flushLoop, Exec.bind_apply, pollFlush_sending hs, transportFlush, hfs], hfs⟩
  | cons r rest ih =>
    have hstep : pollFlush w = .ret r.poll { w with env := { w.env with flushes := rest } } := by
      simp [pollFlush_sending hs, transportFlush, hfs]
    cases r with
    | pending =>
      rcases ih { w with env := { w.env with flushes := rest } } hs rfl
        (fun e h => hf e (.tail _ h)) with ⟨w', h', hr⟩ | ⟨w', h', he⟩
      · exact .inl ⟨w', by simpa [hfs, flushLoop, Exec.bind_apply, hstep, FlushReply.poll] using h', hr⟩
      · exact .inr ⟨w', by simpa [hfs, flushLoop, Exec.bind_apply, hstep, FlushReply.poll] using h', he⟩
    | done =>
      exact .inl ⟨{ w with env := { w.env with flushes := rest } },
        by simp [hfs, flushLoop, Exec.bind_apply, hstep, FlushReply.poll], rfl⟩
    | fail e => exact absurd (.head _) (hf e)

/-- `AsyncReadExt::read_to_end` on the runner; `acc` holds the bytes read so far. -/
def readToEndLoop (parse : Parser) : Nat → Bytes → M τ (Except IoError Bytes)
  | 0, acc => do
    let _ ← pollRead parse ((← Exec.get).env.spare acc.length)
    Exec.stall
  | fuel + 1, acc => do
    match ← pollRead parse ((← Exec.get).env.spare acc.length) with
    | .pending => readToEndLoop parse fuel acc
    | .ready (.error e) => pure (.error e)
    | .ready (.ok bs) =>
      if bs.isEmpty then pure (.ok acc) else readToEndLoop parse fuel (acc ++ bs)

def readToEnd (parse : Parser) : M τ (Except IoError Bytes) := do
  readToEndLoop parse (← Exec.get).env.reads.length []

theorem readToEnd_idle (parse : Parser) {w : World τ} (hs : ¬ w.runner.state.Receiving) :
    readToEnd parse w = .panic "explicit panic" w := by
  cases h : w.env.reads.length <;>
    simp [readToEnd, readToEndLoop, Exec.bind_apply, pollRead_idle _ _ hs, h]

def requestOutput (plan : Http1PlanOutput) : Http1RequestOutput where
  url := plan.url
  headers := plan.headers
  method := plan.method
  versionString := plan.versionString
  body := []
  duration := 0
  bodyDuration := none
  timeToFirstByte := none

/-- The body-phase write pauses; `size_hint.try_into().unwrap()` converts to `i64`. -/
def bodyPauses (plan : Http1PlanOutput) : Option Nat → M τ (Except String (List PauseSpec))
  | some h =>
    if h < 2 ^ 63 then
      pure (.ok [⟨plan.pause.requestBody.start, 0⟩, ⟨plan.pause.requestBody.«end», h⟩])
    else Exec.panic "called `Result::unwrap()` on an `Err` value: TryFromIntError(())"
  | none =>
    if plan.pause.requestBody.«end».isEmpty then pure (.ok [⟨plan.pause.requestBody.start, 0⟩])
    else pure (.error "http1.pause.receive_body.end is unsupported in this request")

theorem bodyPauses_world (plan : Http1PlanOutput) (h : Option Nat) (w : World τ) :
    (bodyPauses (τ := τ) plan h w).world = w := by
  cases h <;> simp only [bodyPauses] <;> split <;> rfl

/-- `start` once the header is written: swap in the body pauses and enter `SendingBody`. -/
def enterBody (sizeHint : Option Nat) : M τ (Except String Unit) := do
  match ← takeState with
  | .sendingHeader startTime transport =>
    match ← bodyPauses (← getRunner).out.plan sizeHint with
    | .error e => pure (.error e)
    | .ok writes =>
      setState (.sendingBody startTime (transport.reset writes []))
      modifyOut fun o => { o with request := some (requestOutput o.plan) }
      pure (.ok ())
  | _ => Exec.panic "invalid state after HTTP/1 header write"

/-- `self.out.error = Some(Http1Error { kind, message })`. -/
def setError (kind message : String) : M τ Unit :=
  modifyOut fun o => { o with error := some ⟨kind, message⟩ }

def start (sizeHint : Option Nat) : M τ (Except String Unit) := do
  match ← takeState with
  | .pending header transport =>
    match ← transportStart with
    | .error e =>
      setError "transport start" e
      setState (.startFailed transport)
      complete
      pure (.error e)
    | .ok () =>
      let startTime ← now
      let plan := (← getRunner).out.plan
      setState (.sendingHeader startTime ⟨transport,
        [⟨plan.pause.requestHeaders.start, 0⟩, ⟨plan.pause.requestHeaders.«end», header.length⟩],
        []⟩)
      let t ← now
      modifyRunner fun r => { r with reqHeaderStartTime := some t }
      match ← writeAllAt header with
      | .error e => pure (.error e.message)
      | .ok () => enterBody sizeHint
  | _ => pure (.error "attempt to start Http1Runner from invalid state")

theorem start_new (t : τ) (p : Http1PlanOutput) (env : Env) {h : Nat} (hh : h < 2 ^ 63)
    (hstart : env.started = .ok ()) (hp : ∀ r ∈ env.writes, r.Progressing) :
    (∃ w', start (some h) ⟨new t p, env⟩ = .ret (.ok ()) w' ∧ SentOn env w'.env (computeHeader p) ∧
      (∃ st ps, w'.runner.state = .sendingBody st ps) ∧
      w'.runner.out = { (new t p : Http1Runner τ).out with request := some (requestOutput p) }) ∨
    ∃ w' pre, start (some h) ⟨new t p, env⟩ = .stall w' ∧ w'.env.sent = env.sent ++ pre ∧
      pre <+: computeHeader p ∧ w'.env.writes = [] := by
  simp only [start, Exec.bind_apply, takeState, new, transportStart, hstart, now, getRunner,
    setState, modifyRunner, writeAllAt, Exec.get_apply]
  split <;> rename_i heq <;>
    rcases writeAll_progress_eq heq rfl trivial hp with ⟨w₂, ho, hw⟩ | ⟨w₂, pre, ho, hw, hpre, he⟩ <;>
    cases ho
  · simp only [enterBody, Exec.bind_apply, takeState, hw.state, getRunner, hw.out, bodyPauses, hh,
      if_true, setState, modifyRunner, modifyOut]
    exact .inl ⟨_, rfl, hw.env.of_left rfl rfl, ⟨_, _, rfl⟩, rfl⟩
  · exact .inr ⟨_, pre, rfl, hw.env.sent, hpre, he⟩

theorem start_header_accepted (t : τ) (p : Http1PlanOutput) (env : Env) {h : Nat}
    {rest : List WriteReply} (hh : h < 2 ^ 63) (hstart : env.started = .ok ())
    (hw : env.writes = .accept (computeHeader p).length :: rest) :
    ∃ w₁, start (some h) ⟨new t p, env⟩ = .ret (.ok ()) w₁ ∧
      (∃ st ps, w₁.runner.state = .sendingBody st ps ∧ ps.inner = t) ∧
      w₁.runner.out = { (new t p : Http1Runner τ).out with request := some (requestOutput p) } ∧
      w₁.runner.reqBodyBuf = computeHeader p ∧ w₁.runner.reqBodyStartTime.isSome ∧
      w₁.env.writes = rest := by
  obtain ⟨b, bs, hcons⟩ := computeHeader_cons p
  simp only [start, new, Exec.bind_apply, takeState, transportStart, hstart, now, getRunner,
    setState, modifyRunner, writeAllAt, Exec.get_apply, hw, hcons, writeAll, pollWrite,
    transportWrite, Poll.isReady, recordWrite, stampOnce, Option.isNone_none, if_true, min_self,
    List.length_cons, Nat.succ_ne_zero, if_false, List.drop_succ_cons, List.drop_length, enterBody, bodyPauses, hh,
    modifyOut, Exec.pure_apply]
  exact ⟨_, rfl, ⟨_, _, rfl, rfl⟩, rfl, by simp [new, hcons], rfl, rfl⟩

theorem start_new_cases (t : τ) (p : Http1PlanOutput) (env : Env) (h : Nat) :
    (∃ e w₁, start (some h) ⟨new t p, env⟩ = .ret (.error e) w₁ ∧
      (w₁.runner.state.Sending ∨ ∃ t', w₁.runner.state = .complete t')) ∨
    (∃ w₁, start (some h) ⟨new t p, env⟩ = .ret (.ok ()) w₁ ∧
      (∃ st ps, w₁.runner.state = .sendingBody st ps) ∧ w₁.runner.out.plan = p ∧
      w₁.env.sent = env.sent ++ computeHeader p) ∨
    (2 ^ 63 ≤ h ∧ ∃ w₁, start (some h) ⟨new t p, env⟩ =
      .panic "called `Result::unwrap()` on an `Err` value: TryFromIntError(())" w₁) ∨
    ∃ w₁, start (some h) ⟨new t p, env⟩ = .stall w₁ := by
  generalize ho : start (some h) ⟨new t p, env⟩ = o
  cases hs : env.started with
  | error e =>
    simp only [start, Exec.bind_apply, takeState, new, transportStart, hs, setError, modifyOut,
      modifyRunner, setState, complete, Exec.pure_apply] at ho
    exact .inl ⟨e, _, ho.symm, .inr ⟨_, rfl⟩⟩
  | ok u =>
    simp only [start, Exec.bind_apply, takeState, new, transportStart, hs, now, getRunner,
      setState, modifyRunner, writeAllAt, Exec.get_apply] at ho
    split at ho <;> rename_i heq
    · rename_i r w₂
      obtain ⟨hst, hout, hsent⟩ := (writeAll_sending _ _ (by exact trivial)).2 r w₂ heq
      rcases r with e | ⟨⟩
      · exact .inl ⟨_, _, ho.symm, .inl (by rw [hst]; trivial)⟩
      · by_cases hh : h < 2 ^ 63
        · simp only [enterBody, Exec.bind_apply, takeState, hst, getRunner, bodyPauses, hh,
            if_true, Exec.pure_apply, setState, modifyRunner, modifyOut] at ho
          exact .inr (.inl ⟨_, ho.symm, ⟨_, _, rfl⟩, by simp [hout], by rw [hsent rfl]⟩)
        · simp only [enterBody, Exec.bind_apply, takeState, hst, getRunner, bodyPauses, hh,
            if_false, Exec.panic_apply] at ho
          exact .inr (.inr (.inl ⟨by omega, _, ho.symm⟩))
    · exact absurd heq ((writeAll_sending _ _ (by exact trivial)).1 _ _)
    · exact .inr (.inr (.inr ⟨_, ho.symm⟩))

/-- The body write of `execute`, with the body moved out of the plan while it is written. -/
def sendBody : M τ (Except IoError Unit) := do
  let body := (← getRunner).out.plan.body
  if body.isEmpty then pure (.ok ())
  else
    modifyOut fun o => { o with plan := { o.plan with body := [] } }
    match ← writeAllAt body with
    | .error e => pure (.error e)
    | .ok () =>
      modifyOut fun o => { o with plan := { o.plan with body := body } }
      pure (.ok ())

theorem sendBody_progress (w : World τ) (hs : w.runner.state.Sending)
    (hp : ∀ r ∈ w.env.writes, r.Progressing) :
    (∃ w', sendBody w = .ret (.ok ()) w' ∧ AfterWrites w w' w.runner.out.plan.body) ∨
    ∃ w' pre, sendBody w = .stall w' ∧ w'.env.sent = w.env.sent ++ pre ∧
      pre <+: w.runner.out.plan.body ∧ w'.env.writes = [] := by
  cases hb : w.runner.out.plan.body with
  | nil => exact .inl ⟨w, by simp [sendBody, Exec.bind_apply, getRunner, hb],
      ⟨⟨by simp, rfl, hp⟩, rfl, rfl⟩⟩
  | cons b bs =>
    simp only [sendBody, Exec.bind_apply, getRunner, hb, List.isEmpty_cons, Bool.false_eq_true,
      if_false, modifyOut, modifyRunner, writeAllAt, Exec.get_apply]
    split <;> rename_i heq <;>
      rcases writeAll_progress_eq heq rfl hs hp with ⟨w₂, ho, hw⟩ | ⟨w₂, pre, ho, hw, hpre, he⟩ <;>
      cases ho
    · refine .inl ⟨_, rfl, ⟨hw.env, hw.state, ?_⟩⟩
      simp only [hw.out]
      rw [← hb]
    · exact .inr ⟨_, pre, rfl, hw.env.sent, hpre, he⟩

theorem sendBody_write_fails {w : World τ} {e : IoError} {rest : List WriteReply}
    (hs : w.runner.state.Sending) (hb : w.runner.out.plan.body ≠ [])
    (hw : w.env.writes = .fail e :: rest) :
    ∃ w', sendBody w = .ret (.error e) w' ∧ w'.runner.state = w.runner.state ∧
      w'.runner.out = { w.runner.out with plan := { w.runner.out.plan with body := [] } } := by
  obtain ⟨b, bs, hcons⟩ := List.exists_cons_of_ne_nil hb
  let w₁ : World τ :=
    { w with runner := { w.runner with out := { w.runner.out with
        plan := { w.runner.out.plan with body := [] } } } }
  obtain ⟨rt, t, hpw⟩ := pollWrite_fail (w := w₁) (b :: bs) hs hw
  refine ⟨_, by
    simp only [sendBody, Exec.bind_apply, getRunner, hcons, List.isEmpty_cons, Bool.false_eq_true,
      if_false, modifyOut, modifyRunner, writeAllAt, Exec.get_apply, hw, List.length_cons, writeAll]
    rw [hpw]; rfl, by exact rfl, by exact rfl⟩

theorem sendBody_cases {w : World τ} (hs : w.runner.state.Sending) :
    (∃ e w', sendBody w = .ret (.error e) w' ∧ w'.runner.state = w.runner.state) ∨
    (∃ w', sendBody w = .ret (.ok ()) w' ∧ w'.runner.state = w.runner.state ∧
      w'.env.sent = w.env.sent ++ w.runner.out.plan.body) ∨
    ∃ w', sendBody w = .stall w' := by
  generalize ho : sendBody w = o
  simp only [sendBody, Exec.bind_apply, getRunner] at ho
  split at ho
  · rename_i hb
    exact .inr (.inl ⟨_, ho.symm, rfl, by simp [List.isEmpty_iff.mp hb]⟩)
  · simp only [modifyOut, modifyRunner, writeAllAt, Exec.bind_apply, Exec.get_apply] at ho
    obtain ⟨hp, hr⟩ := writeAll_sending (w := { w with runner := { w.runner with out :=
      { w.runner.out with plan := { w.runner.out.plan with body := [] } } } }) w.env.writes.length
      w.runner.out.plan.body hs
    split at ho <;> rename_i heq
    · rename_i r w₂
      obtain ⟨hst, -, hsent⟩ := hr r w₂ heq
      rcases r with e | ⟨⟩
      · exact .inl ⟨_, _, ho.symm, hst⟩
      · simp only [Exec.bind_apply, Exec.pure_apply] at ho
        exact .inr (.inl ⟨_, ho.symm, hst, hsent rfl⟩)
    · exact absurd heq (hp _ _)
    · exact .inr (.inr ⟨_, ho.symm⟩)

/-- The end of `execute`: flush, stamp the response start and read the response to its end. -/
def flushAndRead (parse : Parser) : M τ Unit := do
  match ← flush with
  | .error e => setError e.kind.toString e.message
  | .ok () =>
    let t ← now
    modifyRunner fun r => { r with respStartTime := some t }
    match ← readToEnd parse with
    | .error e => setError e.kind.toString e.message
    | .ok _ => pure ()

theorem flushAndRead_cases (parse : Parser) {w : World τ} (hs : w.runner.state.Sending) :
    (∃ w', flushAndRead parse w = .ret () w' ∧ w'.runner.state = w.runner.state ∧
      ∃ e, w'.runner.out.error = some e) ∨
    (∃ w', flushAndRead parse w = .panic "explicit panic" w' ∧ w'.env.sent = w.env.sent) ∨
    ∃ w', flushAndRead parse w = .stall w' := by
  obtain ⟨hr, hsent, hp⟩ := flushLoop_sending w.env.flushes.length w hs
  generalize ho : flushAndRead parse w = o
  simp only [flushAndRead, flush, Exec.bind_apply, Exec.get_apply] at ho
  split at ho <;> rename_i heq
  · rename_i r w₁
    rw [heq] at hr hsent
    simp only [Outcome.world_ret] at hr hsent
    rcases r with e | ⟨⟩
    · simp only [setError, modifyOut, modifyRunner] at ho
      exact .inl ⟨_, ho.symm, by rw [← hr], _, rfl⟩
    · simp only [now, modifyRunner, Exec.bind_apply] at ho
      rw [readToEnd_idle] at ho
      · exact .inr (.inl ⟨_, ho.symm, hsent⟩)
      · simpa [hr] using hs.not_receiving
  · exact absurd heq (hp _ _)
  · exact .inr (.inr ⟨_, ho.symm⟩)

def execute (parse : Parser) : M τ Unit := do
  match ← start (some (← getRunner).out.plan.body.length) with
  | .error e => setError "send headers" e
  | .ok () =>
    match ← sendBody with
    | .error e => setError e.kind.toString e.message
    | .ok () => flushAndRead parse

theorem execute_new (parse : Parser) (t : τ) (p : Http1PlanOutput) (env : Env)
    (hb : p.body.length < 2 ^ 63) (hstart : env.started = .ok ())
    (hp : ∀ r ∈ env.writes, r.Progressing) :
    (∃ w, execute parse ⟨new t p, env⟩ = flushAndRead parse w ∧
      SentOn env w.env (computeHeader p ++ p.body) ∧ w.runner.state.Sending) ∨
    ∃ w pre, execute parse ⟨new t p, env⟩ = .stall w ∧ w.env.sent = env.sent ++ pre ∧
      pre <+: computeHeader p ++ p.body ∧ w.env.writes = [] := by
  rcases start_new t p env hb hstart hp with
    ⟨w₁, h₁, hs₁, ⟨st, ps, hst₁⟩, ho₁⟩ | ⟨w₁, pre, h₁, hs₁, hpre, he⟩
  · have hsend₁ : w₁.runner.state.Sending := by simp [hst₁, State.Sending]
    have hbody : w₁.runner.out.plan.body = p.body := by simp [ho₁]
    rcases sendBody_progress w₁ hsend₁ hs₁.progressing with
      ⟨w₂, h₂, hw₂⟩ | ⟨w₂, pre, h₂, hs₂, hpre, he⟩
    · refine .inl ⟨w₂, by simp only [execute, Exec.bind_apply, getRunner, new_out, h₁, h₂], ?_,
        hw₂.state ▸ hsend₁⟩
      exact hbody ▸ hs₁.trans hw₂.env
    · refine .inr ⟨w₂, computeHeader p ++ pre, by simp only [execute, Exec.bind_apply, getRunner,
        new_out, h₁, h₂], by rw [hs₂, hs₁.sent, List.append_assoc], ?_, he⟩
      exact (List.prefix_append_right_inj _).mpr (hbody ▸ hpre)
  · exact .inr ⟨w₁, pre, by simp only [execute, Exec.bind_apply, getRunner, new_out, h₁], hs₁,
      hpre.trans (List.prefix_append _ _), he⟩

theorem flushAndRead_sent (parse : Parser) (w : World τ) (hs : w.runner.state.Sending) :
    (flushAndRead parse w).world.env.sent = w.env.sent := by
  obtain ⟨hr, hsent, -⟩ := flushLoop_sending w.env.flushes.length w hs
  simp only [flushAndRead, flush, Exec.bind_apply, Exec.get_apply]
  cases hfl : flushLoop w.env.flushes.length w with
  | ret a s =>
    simp only [hfl, Outcome.world] at hr hsent
    cases a with
    | error e => simpa [setError, modifyOut, modifyRunner, Outcome.world] using hsent
    | ok u =>
      simp only [now, modifyRunner, Exec.bind_apply]
      rw [readToEnd_idle parse ?_]
      · simpa [Outcome.world] using hsent
      · exact hr ▸ hs.not_receiving
  | panic m s => simpa [hfl, Outcome.world] using hsent
  | stall s => simpa [hfl, Outcome.world] using hsent

end Apivuln.Http1
