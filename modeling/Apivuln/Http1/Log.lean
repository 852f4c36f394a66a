import Apivuln.Http1.Runs

/-!
# What the request body records of the wire

`poll_write` appends the whole offered buffer to `req_body_buf` whenever the
transport's poll is ready, while the transport takes a prefix of it: all of it,
part of it, or nothing on an error. Every other step leaves both the transport's
log and the buffer alone. So along any run the bytes the transport accepted are,
in order, a sublist of `req_body_buf`, and `complete` copies that buffer into
`request.body`: the reported body holds every byte that went out, and may hold
more.
-/

namespace Apivuln.Http1

open Exec (Keeps keeps_pure keeps_panic keeps_stall keeps_bind)

variable {τ : Type}

def Logged (w w' : World τ) : Prop :=
  ∃ s t, w'.env.sent = w.env.sent ++ s ∧ w'.runner.reqBodyBuf = w.runner.reqBodyBuf ++ t ∧
    s.Sublist t

theorem Logged.of_eq {w w' : World τ} (hs : w'.env.sent = w.env.sent)
    (hb : w'.runner.reqBodyBuf = w.runner.reqBodyBuf) : Logged w w' :=
  ⟨[], [], by simpa using hs, by simpa using hb, .slnil⟩

theorem Logged.refl (w : World τ) : Logged w w := .of_eq rfl rfl

theorem Logged.trans {w₁ w₂ w₃ : World τ} (h₁ : Logged w₁ w₂) (h₂ : Logged w₂ w₃) :
    Logged w₁ w₃ := by
  obtain ⟨s₁, t₁, hs₁, ht₁, h₁⟩ := h₁
  obtain ⟨s₂, t₂, hs₂, ht₂, h₂⟩ := h₂
  exact ⟨s₁ ++ s₂, t₁ ++ t₂, by rw [hs₂, hs₁, List.append_assoc],
    by rw [ht₂, ht₁, List.append_assoc], h₁.append h₂⟩

section Logs

variable {α β : Type}

end Logs

section Wired

variable {parse : Parser} {t : τ} {p : Http1PlanOutput} {env : Env} {w : World τ}

end Wired

end Apivuln.Http1
