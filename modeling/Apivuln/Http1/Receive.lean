import Apivuln.Http1.Send

/-!
# The receive path

No operation moves the runner from `SendingBody` to a receiving state, so the
`read_to_end` of `execute` polls a runner that is still sending, and `poll_read`
panics there.

In `ReceivingBody` the header loop's `receive_header` finds the state already
taken out by the scope guard and panics as soon as a header is complete, before
the bytes past the header are put into the caller's buffer, so the put never
overflows it. The bound behind the put holds anyway: the completing accumulator
is one read of at most `cap + 1` bytes past the accumulator before it, so when
that one held no whole header the bytes past the header number at most `cap`.
-/

namespace Apivuln.Http1

variable {τ : Type}

-- HTTP/1.1 200 OK, a blank line, and the body hi
def okResponse : Bytes :=
  [72, 84, 84, 80, 47, 49, 46, 49, 32, 50, 48, 48, 32, 79, 75, 13, 10, 13, 10, 104, 105]

/-- With a transport that starts and never fails a write or a flush, `execute` on a fresh runner
never reaches the response: it panics in `read_to_end` with the runner still sending, or it waits
forever because the transport stopped answering writes or flushes. -/
theorem execute_panics_before_response (parse : Parser) (t : τ) (p : Http1PlanOutput) (env : Env)
    (hb : p.body.length < 2 ^ 63) (hstart : env.started = .ok ())
    (hp : ∀ r ∈ env.writes, r.Progressing) (hf : ∀ e, FlushReply.fail e ∉ env.flushes) :
    (∃ w, execute parse ⟨new t p, env⟩ = .panic "explicit panic" w ∧ w.runner.state.Sending) ∨
    ∃ w, execute parse ⟨new t p, env⟩ = .stall w ∧ (w.env.writes = [] ∨ w.env.flushes = []) := by
  rcases execute_new parse t p env hb hstart hp with ⟨w, h, hs, hsend⟩ | ⟨w, -, h, -, -, he⟩
  · rw [h]
    rcases flushLoop_settles w hsend (hs.flushes ▸ hf) with ⟨w', hfl, hr⟩ | ⟨w', hfl, he⟩
    · have hsend' : w'.runner.state.Sending := hr ▸ hsend
      simp only [flushAndRead, flush, Exec.bind_apply, Exec.get_apply, hfl, now, modifyRunner]
      rw [readToEnd_idle parse ?_]
      · exact .inl ⟨_, rfl, hsend'⟩
      · exact hsend'.not_receiving
    · exact .inr ⟨w', by simp [flushAndRead, flush, Exec.bind_apply, hfl], .inr he⟩
  · exact .inr ⟨w, h, .inl he⟩

def respondingEnv : Env := scriptEnv [.accept 64, .accept 64] [.data 64, .data 64] okResponse

theorem execute_panics_postPlan :
    postPlan.body.length < 2 ^ 63 ∧ respondingEnv.started = .ok () ∧
      (∀ r ∈ respondingEnv.writes, r.Progressing) ∧
      (∀ e, FlushReply.fail e ∉ respondingEnv.flushes) ∧
      ∃ w, execute rejectAll ⟨new () postPlan, respondingEnv⟩ = .panic "explicit panic" w ∧
        w.runner.state.Sending := by
  have hp : ∀ r ∈ respondingEnv.writes, r.Progressing := by
    simp [respondingEnv, scriptEnv, WriteReply.Progressing]
  have hf : ∀ e, FlushReply.fail e ∉ respondingEnv.flushes := by simp [respondingEnv, scriptEnv]
  -- the run evaluated stage by stage, so that no stage re-evaluates the one before it
  obtain ⟨w₁, h₁⟩ : ∃ w₁, start (some postPlan.body.length)
      (⟨new () postPlan, respondingEnv⟩ : World Unit) = .ret (.ok ()) w₁ := ⟨_, rfl⟩
  have hw₁ : w₁ = (start (some postPlan.body.length)
      (⟨new () postPlan, respondingEnv⟩ : World Unit)).world := by rw [h₁]; rfl
  obtain ⟨w₂, h₂⟩ : ∃ w₂, sendBody w₁ = .ret (.ok ()) w₂ := by rw [hw₁]; exact ⟨_, rfl⟩
  obtain ⟨w₃, h₃⟩ : ∃ w₃, flushAndRead rejectAll w₂ = .panic "explicit panic" w₃ := by
    rw [show w₂ = (sendBody w₁).world by rw [h₂]; rfl, hw₁]; exact ⟨_, rfl⟩
  have hexec : execute rejectAll ⟨new () postPlan, respondingEnv⟩ = .panic "explicit panic" w₃ := by
    simp only [execute, Exec.bind_apply, getRunner, new_out, h₁, h₂, h₃]
  refine ⟨by decide, rfl, hp, hf, ?_⟩
  rcases execute_panics_before_response rejectAll () postPlan respondingEnv (by decide) rfl hp hf
    with h | ⟨w, h, -⟩
  · exact h
  · rw [hexec] at h; cases h

/-- The put of `poll_read` never overflows the caller's buffer of `cap` free bytes, since a call
that completes the header panics in `receive_header` first; and the completing accumulator is the
call's entry accumulator, or one the parser found partial, followed by one read of at most
`cap + 1` bytes, so when the accumulator before that read held no whole header, what lies past the
body start fits in `cap` bytes. -/
theorem pollRead_leftover_fits (parse : Parser) (cap : Nat) (w : World τ) :
    (∀ w', pollRead parse cap w ≠
      .panic "assertion failed: self.remaining_mut() >= src.remaining()" w') ∧
    ∀ w', pollRead parse cap w = .panic "header recieved in incorrect state: Invalid" w' →
      ∃ prev c r b, w'.runner.respHeaderBuf = prev ++ c ∧ c.length ≤ cap + 1 ∧
        w.runner.respHeaderBuf <+: prev ∧
        (prev = w.runner.respHeaderBuf ∨ ∃ r', parse prev = .ok r' ∧ r'.status = .incomplete) ∧
        parse (prev ++ c) = .ok r ∧ r.status = .complete b ∧
        (prev.length < b → ((prev ++ c).drop b).length ≤ cap) := by
  refine ⟨fun w' h => ?_, fun w' h => ?_⟩
  · rcases pollRead_panics parse cap h with hm | hm | ⟨hm, -⟩ <;> exact absurd hm (by decide)
  · rcases pollRead_panics parse cap h with
      hm | hm | ⟨-, prev, c, r, b, hbuf, -, hc, hpre, hprev, hr, hb⟩
    · exact absurd hm (by decide)
    · exact absurd hm (by decide)
    refine ⟨prev, c, r, b, hbuf, hc, hpre, hprev, hr, hb, fun hlt => ?_⟩
    simp only [List.length_drop, List.length_append]
    omega

end Apivuln.Http1
