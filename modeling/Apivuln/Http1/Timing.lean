import Mathlib.Order.Monotone.Basic
import Apivuln.Http1.Runs

/-!
# Instants and durations over timed runs

`complete` turns the runner's instants into the output's durations by
subtraction, and an `Instant` subtracted from an earlier one saturates at zero.
A timed run is a run on a clock that never goes back, with the transport free
to do anything between calls while time passes. `Timeline` says how the
instants of such a run are ordered: each was read before the clock's current
reading, the header write starts no earlier than its state, and once the
request output exists the first write comes no later than the response start
and the shutdown. `Clocked` says of a call that it takes no instant but the
first write's; with `Frames`, that is all most calls need, and `start`,
`complete`, `poll_shutdown` and the end of `execute` are shown to keep the
timeline one by one. So every duration `complete` records is a later instant
minus an earlier one, and since no run records a response, its `expect`s and
`receive_header`'s are never reached.
-/

namespace Apivuln.Http1

open Exec (Leads Keeps keeps_pure keeps_panic keeps_stall keeps_bind leads_bind leads_bind_ret
  leads_pre)

variable {τ : Type}

/-! ## Instants and calls that take none -/

def Http1Runner.instants (r : Http1Runner τ) : List Nat :=
  (r.state.inFlight.map Prod.fst).toList ++ r.reqHeaderStartTime.toList ++
    r.reqBodyStartTime.toList ++ r.respStartTime.toList ++ r.endTime.toList

theorem Http1Runner.mem_instants {r : Http1Runner τ} {t : Nat} :
    t ∈ r.instants ↔ t ∈ r.state.inFlight.map Prod.fst ∨ t ∈ r.reqHeaderStartTime ∨
      t ∈ r.reqBodyStartTime ∨ t ∈ r.respStartTime ∨ t ∈ r.endTime := by
  simp only [Http1Runner.instants, List.mem_append, Option.mem_toList, or_assoc]

structure Later (w w' : World τ) : Prop where
  clock : w'.env.clock = w.env.clock
  ticks : w.env.ticks ≤ w'.env.ticks
  bodyStart : w'.runner.reqBodyStartTime = w.runner.reqBodyStartTime ∨
    w.runner.reqBodyStartTime = none ∧
      ∀ b ∈ w'.runner.reqBodyStartTime, b ≤ w'.env.clock w'.env.ticks
  respStart : w'.runner.respStartTime = w.runner.respStartTime
  endTime : w'.runner.endTime = w.runner.endTime
  reqEnd : w'.runner.reqEndTime = w.runner.reqEndTime
  duration : w'.runner.out.duration = w.runner.out.duration

theorem Later.refl (w : World τ) : Later w w := ⟨rfl, le_rfl, .inl rfl, rfl, rfl, rfl, rfl⟩

theorem Later.trans {w₁ w₂ w₃ : World τ} (hm : Monotone w₂.env.clock) (h₁ : Later w₁ w₂)
    (h₂ : Later w₂ w₃) : Later w₁ w₃ where
  clock := h₂.clock.trans h₁.clock
  ticks := h₁.ticks.trans h₂.ticks
  bodyStart := by
    rcases h₂.bodyStart with e₂ | ⟨n₂, b₂⟩ <;> rcases h₁.bodyStart with e₁ | ⟨n₁, b₁⟩
    · exact .inl (e₂.trans e₁)
    · refine .inr ⟨n₁, fun b hb => (b₁ b (e₂ ▸ hb)).trans ?_⟩
      rw [h₂.clock]; exact hm h₂.ticks
    · exact .inr ⟨e₁ ▸ n₂, b₂⟩
    · exact .inr ⟨n₁, b₂⟩
  respStart := h₂.respStart.trans h₁.respStart
  endTime := h₂.endTime.trans h₁.endTime
  reqEnd := h₂.reqEnd.trans h₁.reqEnd
  duration := h₂.duration.trans h₁.duration

def Clocked {α : Type} (x : M τ α) : Prop :=
  ∀ w₀, Keeps (fun w : World τ => Monotone w.env.clock ∧ Later w₀ w) x

section Clocked

variable {α β : Type}

theorem clocked_of {x : M τ α} (h : ∀ w, Monotone w.env.clock → Later w (x w).world) :
    Clocked x :=
  fun _ w ⟨hm, hl⟩ => ⟨(h w hm).clock ▸ hm, hl.trans hm (h w hm)⟩

theorem clocked_bind {x : M τ α} {f : α → M τ β} (hx : Clocked x) (hf : ∀ a, Clocked (f a)) :
    Clocked (x >>= f) :=
  fun w₀ => keeps_bind (hx w₀) fun a => hf a w₀

theorem clocked_pure (a : α) : Clocked (pure a : M τ α) := fun _ => keeps_pure a

theorem clocked_panic (m : String) : Clocked (Exec.panic m : M τ α) := fun _ => keeps_panic m

theorem clocked_getRunner : Clocked (getRunner (τ := τ)) := clocked_of fun w _ => Later.refl w

theorem clocked_get : Clocked (Exec.get : M τ (World τ)) := clocked_of fun w _ => Later.refl w

theorem clocked_setError (kind message : String) : Clocked (setError (τ := τ) kind message) :=
  clocked_of fun _ _ => ⟨rfl, le_rfl, .inl rfl, rfl, rfl, rfl, rfl⟩

theorem clocked_recordWrite (buf : Bytes) : Clocked (recordWrite (τ := τ) buf) :=
  clocked_of fun w hm => by
    cases hb : w.runner.reqBodyStartTime with
    | none =>
      simp only [recordWrite, stampOnce, Exec.bind_apply, getRunner, hb, Option.isNone_none,
        if_true, now, modifyRunner, Outcome.world_ret]
      exact ⟨rfl, Nat.le_succ _, .inr ⟨hb, fun b h => by cases h; exact hm (Nat.le_succ _)⟩,
        rfl, rfl, rfl, rfl⟩
    | some b =>
      simp only [recordWrite, stampOnce, Exec.bind_apply, getRunner, hb, Option.isNone_some,
        Bool.false_eq_true, if_false, Exec.pure_apply, modifyRunner, Outcome.world_ret]
      exact ⟨rfl, le_rfl, .inl hb.symm, rfl, rfl, rfl, rfl⟩

theorem clocked_pollWrite (buf : Bytes) : Clocked (pollWrite (τ := τ) buf) := by
  refine clocked_bind clocked_getRunner fun r => ?_
  split
  case h_3 => exact clocked_panic _
  all_goals
    refine clocked_bind (clocked_of fun w _ => ?_) fun poll => ?_
    · simp only [transportWrite]; split <;> exact ⟨rfl, le_rfl, .inl rfl, rfl, rfl, rfl, rfl⟩
    · dsimp only
      split
      · exact clocked_bind (clocked_recordWrite buf) fun _ => clocked_pure _
      · exact clocked_bind (clocked_pure _) fun _ => clocked_pure _

theorem clocked_writeAll : ∀ (fuel : Nat) (buf : Bytes), Clocked (writeAll (τ := τ) fuel buf)
  | _, [] => by simpa only [writeAll] using clocked_pure _
  | 0, _ :: _ => clocked_bind (clocked_pollWrite _) fun _ => fun _ => keeps_stall
  | fuel + 1, b :: bs => clocked_bind (clocked_pollWrite _) fun
    | .pending => clocked_writeAll fuel _
    | .ready (.error _) => clocked_pure _
    | .ready (.ok n) => by
      show Clocked (if n = 0 then _ else _)
      split
      · exact clocked_pure _
      · exact clocked_writeAll fuel _

theorem clocked_writeAllAt (buf : Bytes) : Clocked (writeAllAt (τ := τ) buf) :=
  clocked_bind clocked_get fun _ => clocked_writeAll _ _

theorem clocked_pollFlush : Clocked (pollFlush (τ := τ)) := by
  refine clocked_bind clocked_getRunner fun r => ?_
  split
  case h_3 => exact clocked_panic _
  all_goals
    exact clocked_of fun w _ => by
      simp only [transportFlush]; split <;> exact ⟨rfl, le_rfl, .inl rfl, rfl, rfl, rfl, rfl⟩

theorem clocked_flushLoop : ∀ fuel : Nat, Clocked (flushLoop (τ := τ) fuel)
  | 0 => clocked_bind clocked_pollFlush fun _ => fun _ => keeps_stall
  | fuel + 1 => clocked_bind clocked_pollFlush fun
    | .pending => clocked_flushLoop fuel
    | .ready _ => clocked_pure _

theorem clocked_flush : Clocked (flush (τ := τ)) :=
  clocked_bind clocked_get fun _ => clocked_flushLoop _

theorem clocked_sendBody : Clocked (sendBody (τ := τ)) := by
  refine clocked_bind clocked_getRunner fun r => ?_
  dsimp only
  split
  · exact clocked_pure _
  · refine clocked_bind (clocked_of fun _ _ => ⟨rfl, le_rfl, .inl rfl, rfl, rfl, rfl, rfl⟩) fun _ =>
      clocked_bind (clocked_writeAllAt _) fun
        | .error _ => clocked_pure _
        | .ok () => clocked_bind (clocked_of fun _ _ => ⟨rfl, le_rfl, .inl rfl, rfl, rfl, rfl, rfl⟩)
            fun _ => clocked_pure _

end Clocked

/-! ## The timeline -/

/-- How the instants of a timed run are ordered. Every instant was read before the clock's
current reading; a pending runner has taken none that a later one is compared with; the header
write starts no earlier than its state; and once the request output exists the first write comes
no later than the response start and the shutdown. -/
structure Timeline (w : World τ) : Prop where
  quiet : Quiet w.runner
  mono : Monotone w.env.clock
  past : ∀ t ∈ w.runner.instants, t ≤ w.env.clock w.env.ticks
  fresh : ∀ hd tr, w.runner.state = .pending hd tr → hd ≠ [] ∧ w.runner.reqHeaderStartTime = none ∧
    w.runner.respStartTime = none ∧ w.runner.endTime = none ∧ w.runner.out.request = none
  started : ∀ st tr, w.runner.state.inFlight = some (st, tr) →
    (∀ h ∈ w.runner.reqHeaderStartTime, st ≤ h) ∧ ∀ e ∈ w.runner.endTime, st ≤ e
  body : w.runner.out.request ≠ none → ∃ b, w.runner.reqBodyStartTime = some b ∧
    (∀ t ∈ w.runner.respStartTime, b ≤ t) ∧ ∀ e ∈ w.runner.endTime, b ≤ e
  reqEnd : w.runner.reqEndTime = none
  ordered : ∀ req ∈ w.runner.out.request, req.duration ≤ w.runner.out.duration

theorem Timeline.later {w w' : World τ} (h : Timeline w) (hf : Framed w.runner w'.runner)
    (hl : Later w w') : Timeline w' where
  quiet := ⟨hf.state ▸ h.quiet.idle, hf.response ▸ h.quiet.noResponse⟩
  mono := hl.clock ▸ h.mono
  past t ht := by
    have hc : w.env.clock w.env.ticks ≤ w'.env.clock w'.env.ticks := hl.clock ▸ h.mono hl.ticks
    have hold : t ∈ w.runner.instants ∨ t ∈ w'.runner.reqBodyStartTime := by
      simp only [Http1Runner.mem_instants, hf.state, hf.headerStart, hl.respStart,
        hl.endTime] at ht ⊢
      tauto
    rcases hold with ht | ht
    · exact (h.past t ht).trans hc
    rcases hl.bodyStart with hb | ⟨-, hb'⟩
    · exact (h.past t (Http1Runner.mem_instants.mpr (.inr (.inr (.inl (hb ▸ ht)))))).trans hc
    · exact hb' t ht
  fresh hd tr hs := by
    rw [hf.headerStart, hl.respStart, hl.endTime, hf.request]; exact h.fresh hd tr (hf.state ▸ hs)
  started st tr hs := by
    rw [hf.headerStart, hl.endTime]; exact h.started st tr (hf.state ▸ hs)
  body hr := by
    obtain ⟨b, hb, hbr⟩ := h.body (hf.request ▸ hr)
    refine ⟨b, ?_, hl.respStart ▸ hl.endTime ▸ hbr⟩
    rcases hl.bodyStart with e | ⟨n, -⟩
    · exact e.trans hb
    · exact absurd (hb.symm.trans n) (by simp)
  reqEnd := hl.reqEnd.trans h.reqEnd
  ordered req hr := by
    rw [hl.duration]; exact h.ordered req (hf.request ▸ hr)

theorem Clocked.keeps {α : Type} {x : M τ α} (hc : Clocked x) (hf : Frames x)
    {P : World τ → Prop} (hm : ∀ w, P w → Monotone w.env.clock)
    (hP : ∀ w w', P w → Framed w.runner w'.runner → Later w w' → P w') : Keeps P x :=
  fun w hw => hP w _ hw (hf w.runner w (Framed.refl _)) (hc w w ⟨hm w hw, Later.refl w⟩).2

theorem Clocked.timeline {α : Type} {x : M τ α} (hc : Clocked x) (hf : Frames x) :
    Keeps Timeline x :=
  hc.keeps hf (fun _ h => h.mono) fun _ _ h hf hl => h.later hf hl

theorem Timeline.setState {w : World τ} (h : Timeline w) {s : State τ}
    (hin : ∀ st tr, s.inFlight = some (st, tr) → ∃ tr', w.runner.state.inFlight = some (st, tr'))
    (hp : ∀ hd tr, s ≠ .pending hd tr) (hq : ¬ s.Receiving) :
    Timeline { w with runner := { w.runner with state := s } } where
  quiet := ⟨hq, h.quiet.noResponse⟩
  mono := h.mono
  past t ht := h.past t <| by
    rw [Http1Runner.mem_instants] at ht ⊢
    refine ht.imp_left fun hs => ?_
    obtain ⟨⟨st, tr⟩, hmem, rfl⟩ := Option.mem_map.mp hs
    obtain ⟨tr', h'⟩ := hin st tr hmem
    exact Option.mem_map.mpr ⟨(st, tr'), h', rfl⟩
  fresh hd tr hs := absurd hs (hp hd tr)
  started st tr hs := by
    obtain ⟨tr', h'⟩ := hin st tr hs; exact h.started st tr' h'
  body := h.body
  reqEnd := h.reqEnd
  ordered := h.ordered

theorem Timeline.settle {w : World τ} (h : Timeline w) {s : State τ} (hin : s.inFlight = none)
    (hp : ∀ hd tr, s ≠ .pending hd tr) : Timeline { w with runner := { w.runner with state := s } } :=
  h.setState (fun _ _ hs => by rw [hin] at hs; cases hs) hp (by
    cases s <;> simp_all [State.inFlight, State.Receiving])

theorem Timeline.now_le {w : World τ} (h : Timeline w) {t : Nat} (ht : t ∈ w.runner.instants) :
    t ≤ w.env.clock (w.env.ticks + 1) :=
  (h.past t ht).trans (h.mono (Nat.le_succ _))

theorem Timeline.stampEnd {w : World τ} (h : Timeline w) (hs : w.runner.state.Sending) :
    Timeline { runner := { w.runner with endTime := some (w.env.clock w.env.ticks) },
               env := { w.env with ticks := w.env.ticks + 1 } } where
  quiet := ⟨h.quiet.idle, h.quiet.noResponse⟩
  mono := h.mono
  past t ht := by
    simp only [Http1Runner.mem_instants, Option.mem_def, Option.some.injEq] at ht
    rcases ht with ht | ht | ht | ht | rfl
    all_goals first
      | exact h.mono (Nat.le_succ _)
      | exact h.now_le (Http1Runner.mem_instants.mpr (by simp only [Option.mem_def, ht, true_or, or_true]))
  fresh hd tr he := by
    obtain ⟨_, _, hs' | hs'⟩ := State.sending_iff.mp hs <;> simp [hs'] at he
  started st tr hf := ⟨(h.started st tr hf).1, fun e he => by
    cases he; exact h.past st (Http1Runner.mem_instants.mpr (.inl (by simp [hf])))⟩
  body hr := by
    obtain ⟨b, hb, hbr, -⟩ := h.body hr
    exact ⟨b, hb, hbr, fun e he => by
      cases he; exact h.past b (Http1Runner.mem_instants.mpr (by simp [hb]))⟩
  reqEnd := h.reqEnd
  ordered := h.ordered

/-! ## Each call keeps the timeline -/

theorem keeps_timeline_pollShutdown : Keeps Timeline (pollShutdown (τ := τ)) := by
  intro w hw
  by_cases hs : w.runner.state.Sending
  · obtain ⟨st, p, he | he⟩ := State.sending_iff.mp hs <;>
    · cases hsh : w.env.shutdowns with
      | nil =>
        simp only [pollShutdown, Exec.bind_apply, getRunner, he, transportShutdown, hsh]
        exact hw
      | cons r rest =>
        have h₁ : Timeline { w with env := { w.env with shutdowns := rest } } :=
          hw.later (Framed.refl _) ⟨rfl, le_rfl, .inl rfl, rfl, rfl, rfl, rfl⟩
        simp only [pollShutdown, Exec.bind_apply, getRunner, he, transportShutdown, hsh]
        split
        · exact h₁.stampEnd hs
        · exact h₁
  · cases he : w.runner.state <;> simp only [State.Sending, he, not_true_eq_false] at hs <;>
    · simp only [pollShutdown, Exec.bind_apply, getRunner, he, Exec.panic_apply]
      exact hw

theorem Timeline.record {w : World τ} {s : State τ}
    (h : Timeline { w with runner := { w.runner with state := s } }) (st : Nat) (t : τ) :
    Timeline (recordOutputs st t w).world := by
  obtain ⟨ticks, hle, heq⟩ := recordOutputs_quiet st t w h.quiet.noResponse
  rw [heq, Outcome.world_ret]
  exact {
    quiet := ⟨by simp [State.Receiving], h.quiet.noResponse⟩
    mono := h.mono
    past := fun x hx => (h.past x (by
        simp only [Http1Runner.mem_instants, State.inFlight, Option.map_none', Option.not_mem_none,
          false_or] at hx ⊢
        exact .inr hx)).trans (h.mono hle)
    fresh := fun _ _ he => by cases he
    started := fun _ _ he => by cases he
    body := fun hr => h.body (by simpa [recordedOut] using hr)
    reqEnd := h.reqEnd
    ordered := fun req hr => by
      simp only [recordedOut, Option.mem_def, Option.map_eq_some'] at hr
      obtain ⟨_, -, rfl⟩ := hr
      have hre : w.runner.reqEndTime = none := h.reqEnd
      simp only [recordedOut, hre, Option.getD_none, le_refl] }

def Taken (P : World τ → Prop) (st : State τ) (w : World τ) : Prop :=
  P { w with runner := { w.runner with state := st } } ∧ w.runner.state = .invalid

theorem Taken.world {P : World τ → Prop} {st : State τ} {w : World τ} (h : Taken P st w)
    (hi : P { w with runner := { w.runner with state := st } } →
      P { w with runner := { w.runner with state := .invalid } }) : P w := by
  have hw : w = { w with runner := { w.runner with state := .invalid } } := by rw [← h.2]
  rw [hw]; exact hi h.1

theorem keeps_timeline_complete : Keeps Timeline (complete (τ := τ)) := by
  refine leads_takeState_bind (Taken Timeline) (fun _ hw => ⟨hw, rfl⟩) fun st => ?_
  cases st with
  | complete t | pending _ t | startFailed t =>
    exact leads_modifyRunner fun _ h => h.1.settle rfl (by simp)
  | sendingHeader s p | sendingBody s p | receivingHeader s p | receivingBody s p =>
    exact fun _ h => h.1.record s p.inner
  | invalid => exact fun _ h => h.world id

theorem Timeline.openRequest {w : World τ} (h : Timeline w)
    (hp : ∀ hd tr, w.runner.state ≠ .pending hd tr) (hb : w.runner.reqBodyStartTime.isSome)
    (hr : w.runner.respStartTime = none) (he : w.runner.endTime = none) (plan : Http1PlanOutput) :
    Timeline { w with runner := { w.runner with
      out := { w.runner.out with request := some (requestOutput plan) } } } where
  quiet := ⟨h.quiet.idle, h.quiet.noResponse⟩
  mono := h.mono
  past := h.past
  fresh hd tr hs := absurd hs (hp hd tr)
  started := h.started
  body _ := by
    obtain ⟨b, hb'⟩ := Option.isSome_iff_exists.mp hb
    exact ⟨b, hb', by simp [hr], by simp [he]⟩
  reqEnd := h.reqEnd
  ordered req hr := by
    simp only [Option.mem_def, Option.some.injEq] at hr
    subst hr; exact Nat.zero_le _

structure Opening (w : World τ) : Prop where
  timeline : Timeline w
  respStart : w.runner.respStartTime = none
  endTime : w.runner.endTime = none
  request : w.runner.out.request = none
  sending : w.runner.state.Sending

theorem Opening.begun {w : World τ} (h : Opening w) : Timeline w ∧ 1 ≤ w.runner.state.phase := by
  refine ⟨h.timeline, ?_⟩
  obtain ⟨_, _, he | he⟩ := State.sending_iff.mp h.sending <;> rw [he] <;>
    exact Nat.le_of_ble_eq_true rfl

theorem Clocked.opening {α : Type} {x : M τ α} (hc : Clocked x) (hf : Frames x) :
    Keeps Opening x :=
  hc.keeps hf (fun _ h => h.timeline.mono) fun _ _ h hf hl =>
    ⟨h.timeline.later hf hl, hl.respStart.trans h.respStart, hl.endTime.trans h.endTime,
      hf.request.trans h.request, hf.state ▸ h.sending⟩

theorem leads_timeline_enterBody (h : Option Nat) :
    Leads (fun w => Opening w ∧ w.runner.reqBodyStartTime.isSome)
      (fun w => Timeline w ∧ 1 ≤ w.runner.state.phase) (enterBody (τ := τ) h) := by
  refine leads_takeState_bind (Taken fun w => Opening w ∧ w.runner.reqBodyStartTime.isSome)
    (fun _ hw => ⟨hw, rfl⟩) fun st => ?_
  have hleft : ∀ {st : State τ} {w : World τ},
      Taken (fun w => Opening w ∧ w.runner.reqBodyStartTime.isSome) st w →
      Timeline w ∧ 1 ≤ w.runner.state.phase := fun h =>
    ⟨Taken.world (P := Timeline) ⟨h.1.1.timeline, h.2⟩ fun ht => ht.settle rfl (by simp),
      by rw [h.2]; exact Nat.le_of_ble_eq_true rfl⟩
  cases st with
  | sendingHeader st tr =>
    intro w hw
    simp only [Exec.bind_apply, getRunner]
    have hb := bodyPauses_world w.runner.out.plan h w
    cases hp : bodyPauses w.runner.out.plan h w with
    | ret res w₁ =>
      rw [hp, Outcome.world_ret] at hb
      subst hb
      cases res with
      | error e => exact hleft hw
      | ok writes =>
        refine ⟨?_, Nat.le_of_ble_eq_true rfl⟩
        exact (hw.1.1.timeline.setState (s := .sendingBody st (tr.reset writes []))
          (fun _ _ he => ⟨tr.inner, by cases he; rfl⟩) (by simp) (by simp [State.Receiving])).openRequest
          (by simp) hw.1.2 hw.1.1.respStart hw.1.1.endTime _
    | panic m w₁ => rw [hp, Outcome.world_panic] at hb; subst hb; exact hleft hw
    | stall w₁ => rw [hp, Outcome.world_stall] at hb; subst hb; exact hleft hw
  | _ => exact fun _ hw => hleft hw

theorem start_opens (h : Option Nat) {w : World τ} (hw : Timeline w) {hd : Bytes} {tr : τ}
    (hs : w.runner.state = .pending hd tr) (hok : w.env.started = .ok ()) :
    ∃ w₁, start h w = (writeAllAt hd >>= fun r => match r with
        | .error e => pure (.error e.message)
        | .ok () => enterBody h) w₁ ∧ Opening w₁ := by
  obtain ⟨-, hh, hrs, het, hreq⟩ := hw.fresh hd tr hs
  have hc : ∀ t ∈ w.runner.instants, t ≤ w.env.clock (w.env.ticks + 1 + 1) := fun t ht =>
    (hw.past t ht).trans (hw.mono (by omega))
  refine ⟨_, by simp only [start, Exec.bind_apply, takeState, hs, transportStart, hok, now,
      getRunner, setState, modifyRunner]; rfl, by exact ⟨{
    quiet := ⟨by simp [State.Receiving], hw.quiet.noResponse⟩
    mono := hw.mono
    past := fun t ht => by
      show t ≤ w.env.clock (w.env.ticks + 1 + 1)
      simp only [Http1Runner.mem_instants, State.inFlight, Option.map_some', Option.mem_def,
        Option.some.injEq, hrs, het, reduceCtorEq, or_false] at ht
      rcases ht with rfl | rfl | ht
      · exact hw.mono (by omega)
      · exact hw.mono (by omega)
      · exact hc t (Http1Runner.mem_instants.mpr (.inr (.inr (.inl ht))))
    fresh := fun _ _ he => by cases he
    started := fun _ _ he => by
      simp only [State.inFlight, Option.some.injEq, Prod.mk.injEq] at he
      obtain ⟨rfl, -⟩ := he
      exact ⟨fun h' hh' => by cases hh'; exact hw.mono (Nat.le_succ _), by simp [het]⟩
    body := fun hr => absurd hreq hr
    reqEnd := hw.reqEnd
    ordered := fun _ hr => by simp [hreq] at hr }, hrs, het, hreq, by simp [State.Sending]⟩⟩

theorem leads_timeline_headerWrite (h : Option Nat) {hd : Bytes} (hne : hd ≠ []) :
    Leads Opening (fun w => Timeline w ∧ 1 ≤ w.runner.state.phase)
      (writeAllAt hd >>= fun r => match r with
        | .error e => pure (.error e.message)
        | .ok () => enterBody (τ := τ) h) := by
  refine leads_bind_ret (fun r w => r = .ok () → w.runner.reqBodyStartTime.isSome)
    ((clocked_writeAllAt hd).opening (frames_writeAllAt hd))
    (fun w _ r w' hr hok => writeAll_ok_stamped _ hd (.inl hne) (hok ▸ hr))
    (fun _ h => h.begun) fun r => ?_
  cases r with
  | error e => exact fun _ h => h.1.begun
  | ok u => exact leads_pre (fun _ h => ⟨h.1, h.2 rfl⟩) (leads_timeline_enterBody h)

theorem leads_timeline_start (h : Option Nat) :
    Leads Timeline (fun w => Timeline w ∧ 1 ≤ w.runner.state.phase) (start (τ := τ) h) := by
  intro w hw
  cases hs : w.runner.state with
  | pending hd tr =>
    cases hok : w.env.started with
    | error e =>
      simp only [start, Exec.bind_apply, takeState, hs, transportStart, hok, setError, modifyOut,
        modifyRunner, setState, complete, Exec.pure_apply, Outcome.world_ret]
      exact ⟨(hw.settle (s := .complete tr) rfl (by simp)).later ⟨rfl, rfl, rfl, rfl, rfl⟩
        ⟨rfl, le_rfl, .inl rfl, rfl, rfl, rfl, rfl⟩, Nat.le_of_ble_eq_true rfl⟩
    | ok u =>
      obtain ⟨w₁, heq, hO⟩ := start_opens h hw hs hok
      rw [heq]
      exact leads_timeline_headerWrite h (hw.fresh hd tr hs).1 w₁ hO
  | _ =>
    simp only [start, Exec.bind_apply, takeState, hs, Exec.pure_apply, Outcome.world_ret]
    exact ⟨hw.settle rfl (by simp), Nat.le_of_ble_eq_true rfl⟩

theorem Timeline.stampRespStart {w : World τ} (h : Timeline w) (hp : 1 ≤ w.runner.state.phase) :
    Timeline { runner := { w.runner with respStartTime := some (w.env.clock w.env.ticks) },
               env := { w.env with ticks := w.env.ticks + 1 } } where
  quiet := ⟨h.quiet.idle, h.quiet.noResponse⟩
  mono := h.mono
  past t ht := by
    simp only [Http1Runner.mem_instants, Option.mem_def, Option.some.injEq] at ht
    rcases ht with ht | ht | ht | rfl | ht
    · exact h.now_le (Http1Runner.mem_instants.mpr (.inl ht))
    · exact h.now_le (Http1Runner.mem_instants.mpr (.inr (.inl ht)))
    · exact h.now_le (Http1Runner.mem_instants.mpr (.inr (.inr (.inl ht))))
    · exact h.mono (Nat.le_succ _)
    · exact h.now_le (Http1Runner.mem_instants.mpr (.inr (.inr (.inr (.inr ht)))))
  fresh hd tr he := by
    have hs : w.runner.state = .pending hd tr := he
    simp [hs, State.phase] at hp
  started := h.started
  body hr := by
    obtain ⟨b, hb, -, hbe⟩ := h.body hr
    exact ⟨b, hb, fun t ht => by
      cases ht; exact h.past b (Http1Runner.mem_instants.mpr (by simp [hb])), hbe⟩
  reqEnd := h.reqEnd
  ordered := h.ordered

theorem Clocked.begun {α : Type} {x : M τ α} (hc : Clocked x) (hf : Frames x) :
    Keeps (fun w => Timeline w ∧ 1 ≤ w.runner.state.phase) x :=
  hc.keeps hf (fun _ h => h.1.mono) fun _ _ h hf hl => ⟨h.1.later hf hl, hf.state ▸ h.2⟩

theorem leads_timeline_flushAndRead (parse : Parser) :
    Leads (fun w => Timeline w ∧ 1 ≤ w.runner.state.phase) Timeline (flushAndRead (τ := τ) parse) := by
  refine leads_bind (clocked_flush.begun frames_flush) (fun _ h => h.1) fun r => ?_
  cases r with
  | error e => exact leads_pre (fun _ h => h.1) ((clocked_setError _ _).timeline (frames_setError _ _))
  | ok u =>
    intro w h
    have h₁ := h.1.stampRespStart h.2
    simp only [Exec.bind_apply, now, modifyRunner]
    rw [readToEnd_idle parse h₁.quiet.idle]
    exact h₁

theorem keeps_timeline_execute (parse : Parser) : Keeps Timeline (execute (τ := τ) parse) :=
  keeps_bind (clocked_getRunner.timeline frames_getRunner) fun _ =>
    leads_bind (leads_timeline_start _) (fun _ h => h.1) fun
      | .error _ => leads_pre (fun _ h => h.1) ((clocked_setError _ _).timeline (frames_setError _ _))
      | .ok () => leads_bind (clocked_sendBody.begun frames_sendBody) (fun _ h => h.1) fun
        | .error _ => leads_pre (fun _ h => h.1)
            ((clocked_setError _ _).timeline (frames_setError _ _))
        | .ok () => leads_timeline_flushAndRead parse

theorem keeps_timeline_pollRead (parse : Parser) (cap : Nat) :
    Keeps Timeline (pollRead (τ := τ) parse cap) :=
  fun w hw => by rw [pollRead_idle parse cap hw.quiet.idle]; exact hw

theorem keeps_timeline_finish : Keeps Timeline (finish (τ := τ)) :=
  keeps_bind keeps_timeline_complete fun _ =>
    keeps_bind (clocked_getRunner.timeline frames_getRunner) fun r => by
      show Keeps Timeline (match r.state with | .complete t => pure (r.out, t) | _ => Exec.panic _)
      split
      · exact keeps_pure _
      · exact keeps_panic _

theorem keeps_timeline_run (parse : Parser) : ∀ c : Call, Keeps Timeline (c.run (τ := τ) parse)
  | .start h => keeps_bind (fun w hw => (leads_timeline_start h w hw).1) fun _ => keeps_pure _
  | .execute => keeps_timeline_execute parse
  | .pollRead cap => keeps_bind (keeps_timeline_pollRead parse cap) fun _ => keeps_pure _
  | .pollWrite buf =>
    keeps_bind ((clocked_pollWrite buf).timeline (frames_pollWrite buf)) fun _ => keeps_pure _
  | .pollFlush => keeps_bind (clocked_pollFlush.timeline frames_pollFlush) fun _ => keeps_pure _
  | .pollShutdown => keeps_bind keeps_timeline_pollShutdown fun _ => keeps_pure _
  | .finish => keeps_bind keeps_timeline_finish fun _ => keeps_pure _

/-! ## Timed runs -/

/-- The worlds of a timed run: a runner from `new` on a clock that never goes back, driven by
its public calls in any order while the transport does anything and time passes. -/
inductive TimedReachable (parse : Parser) : World τ → Prop
  | new (t : τ) (p : Http1PlanOutput) (env : Env) :
      Monotone env.clock → TimedReachable parse ⟨new t p, env⟩
  | call {w : World τ} (c : Call) : TimedReachable parse w → TimedReachable parse (c.run parse w).world
  | env {w : World τ} (e : Env) : TimedReachable parse w → e.clock = w.env.clock →
      w.env.ticks ≤ e.ticks → TimedReachable parse ⟨w.runner, e⟩

theorem timeline_new (t : τ) (p : Http1PlanOutput) (env : Env) (hm : Monotone env.clock) :
    Timeline ⟨new t p, env⟩ where
  quiet := quiet_new t p
  mono := hm
  past _ ht := by simp [Http1Runner.instants, new, State.inFlight] at ht
  fresh hd tr hs := by
    cases hs
    obtain ⟨b, bs, hcons⟩ := computeHeader_cons p
    exact ⟨by simp [hcons], rfl, rfl, rfl, rfl⟩
  started _ _ hs := by cases hs
  body hr := absurd rfl hr
  reqEnd := rfl
  ordered _ hr := by cases hr

theorem TimedReachable.timeline {parse : Parser} {w : World τ} (h : TimedReachable parse w) :
    Timeline w := by
  induction h with
  | new t p env hm => exact timeline_new t p env hm
  | call c _ ih => exact keeps_timeline_run parse c _ ih
  | env e _ hc ht ih => exact ih.later (Framed.refl _) ⟨hc, ht, .inl rfl, rfl, rfl, rfl, rfl⟩

theorem recordedOut_exact {w : World τ} (h : Timeline w) {st : Nat} {tr : τ}
    (hf : w.runner.state.inFlight = some (st, tr)) :
    (recordedOut w.runner st (endInstant w)).duration + st = endInstant w ∧
      ∀ req ∈ (recordedOut w.runner st (endInstant w)).request,
        req.duration + st = endInstant w ∧
        (∀ d ∈ req.bodyDuration, ∃ b, w.runner.reqBodyStartTime = some b ∧
          d + b = w.runner.respStartTime.getD (endInstant w)) ∧
        ∀ d ∈ req.timeToFirstByte, ∃ hs, w.runner.reqHeaderStartTime = some hs ∧ d + st = hs := by
  have hst : st ≤ endInstant w := by
    cases he : w.runner.endTime with
    | none => simpa [endInstant, he] using
        h.past st (Http1Runner.mem_instants.mpr (.inl (by simp [hf])))
    | some e => simpa [endInstant, he] using (h.started st tr hf).2 e he
  refine ⟨by simp only [recordedOut]; omega, fun req hreq => ?_⟩
  simp only [recordedOut, Option.mem_def, Option.map_eq_some'] at hreq
  obtain ⟨r, hr, rfl⟩ := hreq
  obtain ⟨b, hb, hbr, hbe⟩ := h.body (by simp [hr])
  have hbend : b ≤ w.runner.respStartTime.getD (endInstant w) := by
    cases hrs : w.runner.respStartTime with
    | some t => exact hbr t hrs
    | none =>
      cases he : w.runner.endTime with
      | none => simpa [endInstant, he] using h.past b (Http1Runner.mem_instants.mpr (by simp [hb]))
      | some e => simpa [endInstant, he] using hbe e he
  refine ⟨by simp only [h.reqEnd, Option.getD_none]; omega, fun d hd => ?_, fun d hd => ?_⟩
  · simp only [hb, Option.map_some', Option.mem_def, Option.some.injEq] at hd
    exact ⟨b, hb, by omega⟩
  · simp only [Option.mem_def, Option.map_eq_some'] at hd
    obtain ⟨hs, hhs, rfl⟩ := hd
    exact ⟨hs, hhs, by have := (h.started st tr hf).1 hs hhs; omega⟩

/-- Over every timed run, whatever order its calls come in: `poll_read` never reaches
`receive_header` and `complete` never reaches its `expect`s, each panicking only on a runner in
the wrong state; the output `finish` returns orders its response's durations when there are
any and never reports a request longer than the run; and from a sending or receiving state every
duration it records is exactly a later instant minus an earlier one, never a saturated zero. -/
theorem timed_run_durations_exact {parse : Parser} {w : World τ} (hr : TimedReachable parse w) :
    (∀ cap m w', pollRead parse cap w = .panic m w' → m = "explicit panic") ∧
    (∀ m w', complete w = .panic m w' → m = "explicit panic") ∧
    ∀ o t w', finish w = .ret (o, t) w' →
      (∀ resp ∈ o.response, (∀ a ∈ resp.timeToFirstByte, ∀ b ∈ resp.headerDuration, a ≤ b) ∧
        ∀ b ∈ resp.headerDuration, b ≤ resp.duration) ∧
      (∀ req ∈ o.request, req.duration ≤ o.duration) ∧
      ∀ st tr, w.runner.state.inFlight = some (st, tr) →
        o.duration + st = endInstant w ∧
        ∀ req ∈ o.request, req.duration + st = endInstant w ∧
          (∀ d ∈ req.bodyDuration, ∃ b, w.runner.reqBodyStartTime = some b ∧
            d + b = w.runner.respStartTime.getD (endInstant w)) ∧
          ∀ d ∈ req.timeToFirstByte, ∃ hs, w.runner.reqHeaderStartTime = some hs ∧ d + st = hs := by
  have h := hr.timeline
  refine ⟨fun cap m w' hp => ?_, fun m w' hc => complete_panics_invalid h.quiet.noResponse hc,
    fun o t w' hfin => ?_⟩
  · rw [pollRead_idle parse cap h.quiet.idle] at hp
    cases hp; rfl
  obtain ⟨w₁, hcw, ho⟩ := finish_out hfin
  have hc : Timeline w₁ := by simpa [hcw] using keeps_timeline_complete w h
  refine ⟨fun resp hresp => by simp [ho, hc.quiet.noResponse] at hresp, ho ▸ hc.ordered,
    fun st tr hf => ?_⟩
  obtain ⟨w'', h''⟩ := finish_inFlight hf h.quiet.noResponse
  rw [h''] at hfin
  cases hfin
  exact recordedOut_exact h hf

def executedWorld : World Unit := (Call.execute.run rejectAll ⟨new () postPlan, splitEnv⟩).world

theorem timed_run_durations_executed :
    TimedReachable rejectAll executedWorld ∧ executedWorld.runner.state.inFlight.isSome ∧
      (∃ o t w', finish executedWorld = .ret (o, t) w') ∧
      (∀ cap m w', pollRead rejectAll cap executedWorld = .panic m w' → m = "explicit panic") ∧
      (∀ m w', complete executedWorld = .panic m w' → m = "explicit panic") ∧
      ∀ o t w', finish executedWorld = .ret (o, t) w' →
        (∀ resp ∈ o.response, (∀ a ∈ resp.timeToFirstByte, ∀ b ∈ resp.headerDuration, a ≤ b) ∧
          ∀ b ∈ resp.headerDuration, b ≤ resp.duration) ∧
        (∀ req ∈ o.request, req.duration ≤ o.duration) ∧
        ∀ st tr, executedWorld.runner.state.inFlight = some (st, tr) →
          o.duration + st = endInstant executedWorld ∧
          ∀ req ∈ o.request, req.duration + st = endInstant executedWorld ∧
            (∀ d ∈ req.bodyDuration, ∃ b, executedWorld.runner.reqBodyStartTime = some b ∧
              d + b = executedWorld.runner.respStartTime.getD (endInstant executedWorld)) ∧
            ∀ d ∈ req.timeToFirstByte,
              ∃ hs, executedWorld.runner.reqHeaderStartTime = some hs ∧ d + st = hs := by
  have hr : TimedReachable rejectAll executedWorld :=
    .call .execute (.new () postPlan splitEnv monotone_id)
  obtain ⟨w, hexec, hs, hn⟩ := execute_postPlan_split
  have hw : executedWorld = w := by
    show (execute rejectAll _).world = w
    rw [hexec]; rfl
  obtain ⟨⟨st, tr⟩, hf⟩ := Option.isSome_iff_exists.mp hs
  obtain ⟨w', hfin⟩ := finish_inFlight (hw ▸ hf) (hw ▸ hn)
  exact ⟨hr, hw ▸ hs, ⟨_, _, w', hfin⟩, timed_run_durations_exact hr⟩

end Apivuln.Http1
