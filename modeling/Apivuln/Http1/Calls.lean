import Apivuln.Http1.Receive

/-!
# The runner's public calls and what they leave alone

A caller holds the runner between `new` and `finish` and may make its public
calls in any order. Most of what a call does touches only the transport, the
clock and the runner's buffers and timestamps; `Frames` says so of a call, one
lemma per function, composed along `bind`. An invariant that reads only the
framed fields then needs its own argument only for `start`, `complete` and
`poll_read`: `execute` and `finish` are built from them and framed calls.
-/

namespace Apivuln.Http1

open Exec (Keeps keeps_pure keeps_panic keeps_stall keeps_bind)

variable {τ : Type}

structure Framed (r r' : Http1Runner τ) : Prop where
  state : r'.state = r.state
  request : r'.out.request = r.out.request
  response : r'.out.response = r.out.response
  headerStart : r'.reqHeaderStartTime = r.reqHeaderStartTime
  firstRead : r'.firstRead = r.firstRead

theorem Framed.refl (r : Http1Runner τ) : Framed r r := ⟨rfl, rfl, rfl, rfl, rfl⟩

theorem Framed.trans {r₁ r₂ r₃ : Http1Runner τ} (h₁ : Framed r₁ r₂) (h₂ : Framed r₂ r₃) :
    Framed r₁ r₃ :=
  ⟨h₂.state.trans h₁.state, h₂.request.trans h₁.request, h₂.response.trans h₁.response,
    h₂.headerStart.trans h₁.headerStart, h₂.firstRead.trans h₁.firstRead⟩

/-- `x` ends, however it ends, with the framed fields as it found them. -/
def Frames {α : Type} (x : M τ α) : Prop := ∀ r, Keeps (fun w : World τ => Framed r w.runner) x

section Frames

variable {α β : Type}

theorem Frames.keeps {x : M τ α} {P : Http1Runner τ → Prop}
    (hP : ∀ r r', Framed r r' → P r → P r') (hx : Frames x) : Keeps (fun w => P w.runner) x :=
  fun w hw => hP _ _ (hx w.runner w (Framed.refl _)) hw

theorem frames_bind {x : M τ α} {f : α → M τ β} (hx : Frames x) (hf : ∀ a, Frames (f a)) :
    Frames (x >>= f) :=
  fun r => keeps_bind (hx r) fun a => hf a r

theorem frames_pure (a : α) : Frames (pure a : M τ α) := fun _ => keeps_pure a

theorem frames_of_runner {x : M τ α} (h : ∀ w, (x w).world.runner = w.runner) : Frames x :=
  fun _ w hw => by show Framed _ (x w).world.runner; rw [h w]; exact hw

theorem frames_modifyRunner {f : Http1Runner τ → Http1Runner τ} (h : ∀ r, Framed r (f r)) :
    Frames (modifyRunner f) :=
  fun _ _ hw => hw.trans (h _)

theorem frames_getRunner : Frames (getRunner (τ := τ)) := frames_of_runner fun _ => rfl

theorem frames_get : Frames (Exec.get : M τ (World τ)) := frames_of_runner fun _ => rfl

theorem frames_now : Frames (now (τ := τ)) := frames_of_runner fun _ => rfl

theorem frames_transportStart : Frames (transportStart (τ := τ)) := frames_of_runner fun _ => rfl

theorem frames_transportRead (n : Nat) : Frames (transportRead (τ := τ) n) :=
  frames_of_runner fun w => by simp only [transportRead]; split <;> rfl

theorem frames_setError (kind message : String) : Frames (setError (τ := τ) kind message) := by
  unfold setError modifyOut
  exact frames_modifyRunner fun _ => ⟨rfl, rfl, rfl, rfl, rfl⟩

theorem frames_stampOnce {stamp : Http1Runner τ → Option Nat}
    {set : Nat → Http1Runner τ → Http1Runner τ} (h : ∀ t r, Framed r (set t r)) :
    Frames (stampOnce stamp set) := by
  refine frames_bind frames_getRunner fun r => ?_
  split
  · exact frames_bind frames_now fun t => frames_modifyRunner (h t)
  · exact frames_pure _

theorem frames_recordWrite (buf : Bytes) : Frames (recordWrite (τ := τ) buf) :=
  frames_bind (frames_stampOnce fun _ _ => ⟨rfl, rfl, rfl, rfl, rfl⟩) fun _ =>
    frames_modifyRunner fun _ => ⟨rfl, rfl, rfl, rfl, rfl⟩

theorem frames_pollWrite (buf : Bytes) : Frames (pollWrite (τ := τ) buf) := by
  refine frames_bind frames_getRunner fun r => ?_
  split
  case h_3 => exact fun _ => keeps_panic _
  all_goals
    refine frames_bind (frames_of_runner fun w => ?_) fun poll => ?_
    · simp only [transportWrite]; split <;> rfl
    · dsimp only
      split
      · exact frames_bind (frames_recordWrite buf) fun _ => frames_pure _
      · exact frames_bind (frames_pure _) fun _ => frames_pure _

theorem frames_writeAll : ∀ (fuel : Nat) (buf : Bytes), Frames (writeAll (τ := τ) fuel buf)
  | _, [] => by simpa only [writeAll] using frames_pure _
  | 0, _ :: _ => frames_bind (frames_pollWrite _) fun _ => fun _ => keeps_stall
  | fuel + 1, b :: bs => frames_bind (frames_pollWrite _) fun
    | .pending => frames_writeAll fuel _
    | .ready (.error _) => frames_pure _
    | .ready (.ok n) => by
      show Frames (if n = 0 then _ else _)
      split
      · exact frames_pure _
      · exact frames_writeAll fuel _

theorem frames_writeAllAt (buf : Bytes) : Frames (writeAllAt (τ := τ) buf) :=
  frames_bind frames_get fun _ => frames_writeAll _ _

theorem frames_pollFlush : Frames (pollFlush (τ := τ)) := by
  refine frames_bind frames_getRunner fun r => ?_
  split
  case h_3 => exact fun _ => keeps_panic _
  all_goals exact frames_of_runner fun w => by simp only [transportFlush]; split <;> rfl

theorem frames_flushLoop : ∀ fuel : Nat, Frames (flushLoop (τ := τ) fuel)
  | 0 => frames_bind frames_pollFlush fun _ => fun _ => keeps_stall
  | fuel + 1 => frames_bind frames_pollFlush fun
    | .pending => frames_flushLoop fuel
    | .ready _ => frames_pure _

theorem frames_flush : Frames (flush (τ := τ)) :=
  frames_bind frames_get fun _ => frames_flushLoop _

theorem frames_pollShutdown : Frames (pollShutdown (τ := τ)) := by
  refine frames_bind frames_getRunner fun r => ?_
  split
  case h_3 => exact fun _ => keeps_panic _
  all_goals
    refine frames_bind (frames_of_runner fun w => ?_) fun poll => ?_
    · simp only [transportShutdown]; split <;> rfl
    · dsimp only
      split
      · exact frames_bind frames_now fun _ => frames_bind
          (frames_modifyRunner fun _ => ⟨rfl, rfl, rfl, rfl, rfl⟩) fun _ => frames_pure _
      · exact frames_bind (frames_pure _) fun _ => frames_pure _

theorem frames_sendBody : Frames (sendBody (τ := τ)) := by
  refine frames_bind frames_getRunner fun r => ?_
  dsimp only
  split
  · exact frames_pure _
  · refine frames_bind (frames_modifyRunner fun _ => ⟨rfl, rfl, rfl, rfl, rfl⟩) fun _ =>
      frames_bind (frames_writeAllAt _) fun
        | .error _ => frames_pure _
        | .ok () => frames_bind (frames_modifyRunner fun _ => ⟨rfl, rfl, rfl, rfl, rfl⟩)
            fun _ => frames_pure _

theorem frames_bodyPauses (plan : Http1PlanOutput) (h : Option Nat) :
    Frames (bodyPauses (τ := τ) plan h) :=
  frames_of_runner fun w => by
    cases h with
    | some n => simp only [bodyPauses]; split <;> rfl
    | none => simp only [bodyPauses]; split <;> rfl

end Frames

/-- The runner's public calls, `finish` included. -/
inductive Call where
  | start (sizeHint : Option Nat)
  | execute
  | pollRead (cap : Nat)
  | pollWrite (buf : Bytes)
  | pollFlush
  | pollShutdown
  | finish

def Call.run (parse : Parser) : Call → M τ Unit
  | .start h => do let _ ← Http1.start h
  | .execute => Http1.execute parse
  | .pollRead cap => do let _ ← Http1.pollRead parse cap
  | .pollWrite buf => do let _ ← Http1.pollWrite buf
  | .pollFlush => do let _ ← Http1.pollFlush
  | .pollShutdown => do let _ ← Http1.pollShutdown
  | .finish => do let _ ← Http1.finish

/-! An invariant that every framed call keeps is kept by every call, once `start`, `complete`
and `poll_read` keep it. -/

section Compose

variable {P : World τ → Prop} (hP : ∀ {α : Type} {x : M τ α}, Frames x → Keeps P x)
  (parse : Parser) (hpoll : ∀ cap, Keeps P (pollRead parse cap))

include hP hpoll

theorem keeps_readToEndLoop : ∀ (fuel : Nat) (acc : Bytes), Keeps P (readToEndLoop parse fuel acc)
  | 0, _ => keeps_bind (hP frames_get) fun _ => keeps_bind (hpoll _) fun _ => keeps_stall
  | fuel + 1, acc => keeps_bind (hP frames_get) fun _ => keeps_bind (hpoll _) fun
    | .pending => keeps_readToEndLoop fuel acc
    | .ready (.error _) => keeps_pure _
    | .ready (.ok bs) => by
      show Keeps P (if bs.isEmpty then _ else _)
      split
      · exact keeps_pure _
      · exact keeps_readToEndLoop fuel _

theorem keeps_flushAndRead : Keeps P (flushAndRead parse) := by
  refine keeps_bind (hP frames_flush) fun
    | .error _ => hP (frames_setError _ _)
    | .ok () => ?_
  refine keeps_bind (hP frames_now) fun _ => keeps_bind
    (hP (frames_modifyRunner fun _ => ⟨rfl, rfl, rfl, rfl, rfl⟩)) fun _ => ?_
  exact keeps_bind (keeps_bind (hP frames_get) fun _ => keeps_readToEndLoop hP parse hpoll _ _) fun
    | .error _ => hP (frames_setError _ _)
    | .ok _ => keeps_pure _

theorem keeps_run (hstart : ∀ h, Keeps P (start h)) (hcomplete : Keeps P complete) :
    ∀ c : Call, Keeps P (c.run parse)
  | .start h => keeps_bind (hstart h) fun _ => keeps_pure _
  | .execute => keeps_bind (hP frames_getRunner) fun _ => keeps_bind (hstart _) fun
    | .error _ => hP (frames_setError _ _)
    | .ok () => keeps_bind (hP frames_sendBody) fun
      | .error _ => hP (frames_setError _ _)
      | .ok () => keeps_flushAndRead hP parse hpoll
  | .pollRead cap => keeps_bind (hpoll cap) fun _ => keeps_pure _
  | .pollWrite buf => keeps_bind (hP (frames_pollWrite buf)) fun _ => keeps_pure _
  | .pollFlush => keeps_bind (hP frames_pollFlush) fun _ => keeps_pure _
  | .pollShutdown => keeps_bind (hP frames_pollShutdown) fun _ => keeps_pure _
  | .finish => keeps_bind (keeps_bind hcomplete fun _ => keeps_bind (hP frames_getRunner) fun r => by
      show Keeps P (match r.state with | .complete t => pure (r.out, t) | _ => Exec.panic _)
      split
      · exact keeps_pure _
      · exact keeps_panic _) fun _ => keeps_pure _

end Compose

end Apivuln.Http1
