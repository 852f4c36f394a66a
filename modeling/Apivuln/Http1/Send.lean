import Apivuln.Http1.Drive

/-!
# What the send path puts on the wire and in the output

`execute` writes the header block and then the body through `poll_write`, and
the transport may take any part of a buffer at each poll. What reaches the
transport is the block followed by the body, each byte once and in order. What
the runner records as the request body is another matter: `poll_write` appends
the whole offered buffer on every ready poll, and the header is written through
it too. The body is moved out of the echoed plan while it is written and moved
back only once the write succeeds, so a transport that fails the body write
leaves the output's plan without its body.
-/

namespace Apivuln.Http1

variable {τ : Type}

def scriptEnv (writes : List WriteReply) (reads : List ReadReply) (incoming : Bytes) : Env where
  clock := id
  ticks := 0
  started := .ok ()
  writes := writes
  flushes := [.done]
  shutdowns := []
  reads := reads
  incoming := incoming
  spare := fun _ => 32
  sent := []

def rejectAll : Parser := fun _ => .error "unsupported"

/-- With a transport that never fails a write, `execute` hands it the header block and then the
body, every byte once and in order; it stops short only when the transport stops answering
writes, and then what it sent is a prefix of the two. -/
theorem execute_sends_header_then_body (parse : Parser) (t : τ) (p : Http1PlanOutput) (env : Env)
    (hb : p.body.length < 2 ^ 63) (hstart : env.started = .ok ())
    (hp : ∀ r ∈ env.writes, r.Progressing) :
    (execute parse ⟨new t p, env⟩).world.env.sent = env.sent ++ (computeHeader p ++ p.body) ∨
    ∃ w pre, execute parse ⟨new t p, env⟩ = .stall w ∧ w.env.writes = [] ∧
      pre <+: computeHeader p ++ p.body ∧ w.env.sent = env.sent ++ pre := by
  rcases execute_new parse t p env hb hstart hp with
    ⟨w, h, hs, hsend⟩ | ⟨w, pre, h, hsent, hpre, he⟩
  · exact .inl (by rw [h, flushAndRead_sent parse w hsend, hs.sent])
  · exact .inr ⟨w, pre, h, he, hpre, hsent⟩

def splitEnv : Env := scriptEnv [.accept 5, .pending, .accept 24, .accept 2, .accept 1] [] []

theorem execute_postPlan_split :
    ∃ w, execute rejectAll ⟨new () postPlan, splitEnv⟩ = .panic "explicit panic" w ∧
      w.runner.state.inFlight.isSome ∧ w.runner.out.response = none := by
  -- the run evaluated stage by stage, so that no stage re-evaluates the one before it
  obtain ⟨w₁, h₁⟩ : ∃ w₁, start (some postPlan.body.length)
      (⟨new () postPlan, splitEnv⟩ : World Unit) = .ret (.ok ()) w₁ := ⟨_, rfl⟩
  have hw₁ : w₁ = (start (some postPlan.body.length)
      (⟨new () postPlan, splitEnv⟩ : World Unit)).world := by rw [h₁]; rfl
  obtain ⟨w₂, h₂⟩ : ∃ w₂, sendBody w₁ = .ret (.ok ()) w₂ := by rw [hw₁]; exact ⟨_, rfl⟩
  obtain ⟨w₃, h₃, hs⟩ : ∃ w₃, flushAndRead rejectAll w₂ = .panic "explicit panic" w₃ ∧
      w₃.runner.state.inFlight.isSome ∧ w₃.runner.out.response = none := by
    rw [show w₂ = (sendBody w₁).world by rw [h₂]; rfl, hw₁]; exact ⟨_, rfl, rfl, rfl⟩
  exact ⟨w₃, by simp only [execute, Exec.bind_apply, getRunner, new_out, h₁, h₂, h₃], hs⟩

theorem execute_sends_postPlan_split :
    postPlan.body.length < 2 ^ 63 ∧ splitEnv.started = .ok () ∧
      (∀ r ∈ splitEnv.writes, r.Progressing) ∧
      (execute rejectAll ⟨new () postPlan, splitEnv⟩).world.env.sent =
        splitEnv.sent ++ (computeHeader postPlan ++ postPlan.body) := by
  have hp : ∀ r ∈ splitEnv.writes, r.Progressing := by
    simp [splitEnv, scriptEnv, WriteReply.Progressing]
  obtain ⟨w, hexec, -⟩ := execute_postPlan_split
  refine ⟨by decide, rfl, hp, ?_⟩
  rcases execute_sends_header_then_body rejectAll () postPlan splitEnv (by decide) rfl hp with
    h | ⟨w', pre, h, -⟩
  · exact h
  · rw [hexec] at h; cases h

/-- `start` writes the header through `poll_write`, which records it as request body: a runner
started and finished with no body write reports the header block as its request body, and a
body duration although no body byte was written. -/
theorem start_then_finish_records_header (t : τ) (p : Http1PlanOutput) (env : Env)
    {rest : List WriteReply} (hstart : env.started = .ok ())
    (hw : env.writes = .accept (computeHeader p).length :: rest) :
    ∃ w₁ w₂ o, start (some 0) ⟨new t p, env⟩ = .ret (.ok ()) w₁ ∧ finish w₁ = .ret (o, t) w₂ ∧
      o.request.map (·.body) = some (computeHeader p) ∧ (o.request.bind (·.bodyDuration)).isSome := by
  obtain ⟨w₁, h₁, ⟨st, ps, hst, rfl⟩, hout, hbuf, hbs, -⟩ :=
    start_header_accepted t p env (by decide : 0 < 2 ^ 63) hstart hw
  obtain ⟨w₂, h₂⟩ := finish_inFlight (show w₁.runner.state.inFlight = some (st, ps.inner) by
    simp [hst, State.inFlight]) (by simp [hout, new])
  exact ⟨w₁, w₂, _, h₁, h₂, by simp [recordedOut, hout, hbuf], by simpa [recordedOut, hout] using hbs⟩

theorem start_then_finish_postPlan :
    (scriptEnv [.accept (computeHeader postPlan).length] [] []).started = .ok () ∧
      (scriptEnv [.accept (computeHeader postPlan).length] [] []).writes =
        .accept (computeHeader postPlan).length :: [] ∧
      ∃ w₁ w₂ o,
        start (some 0) ⟨new () postPlan, scriptEnv [.accept (computeHeader postPlan).length] [] []⟩ =
          .ret (.ok ()) w₁ ∧ finish w₁ = .ret (o, ()) w₂ ∧
        o.request.map (·.body) = some (computeHeader postPlan) ∧
        (o.request.bind (·.bodyDuration)).isSome :=
  ⟨rfl, rfl, start_then_finish_records_header () postPlan _ rfl rfl⟩

/-- `execute` takes the body out of the plan for its write and puts it back only after the write
succeeds: when the transport takes the header and then fails the first body write, the runner
records the error and `finish` echoes the plan with an empty body. -/
theorem execute_body_write_error_drops_body (parse : Parser) (t : τ) (p : Http1PlanOutput)
    (env : Env) {e : IoError} {rest : List WriteReply} (hb : p.body ≠ [])
    (hlen : p.body.length < 2 ^ 63) (hstart : env.started = .ok ())
    (hw : env.writes = .accept (computeHeader p).length :: .fail e :: rest) :
    ∃ w₁ w₂ o, execute parse ⟨new t p, env⟩ = .ret () w₁ ∧ finish w₁ = .ret (o, t) w₂ ∧
      o.plan = { p with body := [] } ∧ o.error = some ⟨e.kind.toString, e.message⟩ := by
  obtain ⟨w₁, h₁, ⟨st, ps, hst, rfl⟩, hout, -, -, hws⟩ := start_header_accepted t p env hlen hstart hw
  obtain ⟨w₂, h₂, hst₂, hout₂⟩ :=
    sendBody_write_fails (by simp [hst, State.Sending]) (by simpa [hout] using hb) hws
  obtain ⟨w₃, h₃⟩ := finish_inFlight (w := { w₂ with runner := { w₂.runner with
    out := { w₂.runner.out with error := some ⟨e.kind.toString, e.message⟩ } } })
    (show _ = some (st, ps.inner) by simp [hst₂, hst, State.inFlight]) (by simp [hout₂, hout])
  refine ⟨_, w₃, _, ?_, h₃, by simp [recordedOut, hout₂, hout], by simp [recordedOut]⟩
  simp only [execute, Exec.bind_apply, getRunner, new_out, h₁, h₂, setError, modifyOut, modifyRunner]

def bodyFailEnv : Env :=
  scriptEnv [.accept (computeHeader postPlan).length, .fail ⟨.other, "broken pipe"⟩] [] []

theorem execute_postPlan_body_error_drops_body :
    postPlan.body ≠ [] ∧ postPlan.body.length < 2 ^ 63 ∧ bodyFailEnv.started = .ok () ∧
      bodyFailEnv.writes =
        .accept (computeHeader postPlan).length :: .fail ⟨.other, "broken pipe"⟩ :: [] ∧
      ∃ w₁ w₂ o, execute rejectAll ⟨new () postPlan, bodyFailEnv⟩ = .ret () w₁ ∧
        finish w₁ = .ret (o, ()) w₂ ∧ o.plan = { postPlan with body := [] } ∧
        o.error = some ⟨ErrorKind.other.toString, "broken pipe"⟩ :=
  ⟨by decide, by decide, rfl, rfl,
    execute_body_write_error_drops_body rejectAll () postPlan bodyFailEnv (by decide) (by decide) rfl rfl⟩

end Apivuln.Http1
