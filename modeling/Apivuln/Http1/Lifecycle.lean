import Apivuln.Http1.Calls

/-!
# The output lifecycle

What the runner records in its output follows its progress. A request output
appears once the header write began, and it is there for the whole body phase;
a response appears only after a first response byte was read; and a response
body only once `complete` has run. These facts hold for a fresh runner and
every public call keeps them, from every runner that has them, whatever the
transport does. The request output appears when the header write completes,
not when it begins: a header write that fails leaves the runner sending the
header with no request output.
-/

namespace Apivuln.Http1

open Exec (Keeps Leads keeps_pure keeps_panic keeps_get keeps_bind leads_bind leads_pre)

variable {τ : Type}

def State.Finished : State τ → Prop
  | .complete _ | .invalid => True
  | _ => False

/-- The output lifecycle of a runner. -/
structure OutputLifecycle (r : Http1Runner τ) : Prop where
  requestAfterHeader : r.out.request.isSome → r.reqHeaderStartTime.isSome
  requestWhileSending : ∀ st ps, r.state = .sendingBody st ps → r.out.request.isSome
  responseAfterRead : r.out.response.isSome → r.firstRead.isSome
  bodyAfterComplete : (r.out.response.bind (·.body)).isSome → r.state.Finished

theorem OutputLifecycle.of_framed {r r' : Http1Runner τ} (h : OutputLifecycle r)
    (hf : Framed r r') : OutputLifecycle r' where
  requestAfterHeader := hf.request ▸ hf.headerStart ▸ h.requestAfterHeader
  requestWhileSending st ps hs := hf.request ▸ h.requestWhileSending st ps (hf.state ▸ hs)
  responseAfterRead := hf.response ▸ hf.firstRead ▸ h.responseAfterRead
  bodyAfterComplete := hf.response ▸ hf.state ▸ h.bodyAfterComplete

theorem outputLifecycle_new (t : τ) (p : Http1PlanOutput) : OutputLifecycle (new t p) :=
  ⟨by simp, by simp, by simp, by simp⟩

theorem OutputLifecycle.take {r : Http1Runner τ} (h : OutputLifecycle r) :
    OutputLifecycle ({ r with state := .invalid } : Http1Runner τ) :=
  ⟨h.requestAfterHeader, fun _ _ => nofun, h.responseAfterRead, fun _ => trivial⟩

/-! ## Steps that change the state -/

theorem leads_takeState_bind {α : Type} {P Q : World τ → Prop} (R : State τ → World τ → Prop)
    {k : State τ → M τ α}
    (hR : ∀ w, P w → R w.runner.state { w with runner := { w.runner with state := .invalid } })
    (hk : ∀ st, Leads (R st) Q (k st)) : Leads P Q (takeState >>= k) :=
  fun w hw => hk _ _ (hR w hw)

theorem leads_modifyRunner {P Q : World τ → Prop} {f : Http1Runner τ → Http1Runner τ}
    (h : ∀ w, P w → Q { w with runner := f w.runner }) : Leads P Q (modifyRunner f) :=
  h

/-! ## `start` and `complete` -/

def Tracked (w : World τ) : Prop := OutputLifecycle w.runner

def NoBody (w : World τ) : Prop := w.runner.out.response.bind (·.body) = none

def HeaderBegun (w : World τ) : Prop := w.runner.reqHeaderStartTime.isSome

section Stable

variable {α : Type} {x : M τ α}

theorem Frames.keeps_tracked (hx : Frames x) : Keeps Tracked x :=
  hx.keeps fun _ _ hf h => h.of_framed hf

theorem Frames.keeps_noBody (hx : Frames x) : Keeps (fun w => Tracked w ∧ NoBody w) x :=
  hx.keeps (P := fun r => OutputLifecycle r ∧ r.out.response.bind (·.body) = none)
    fun _ _ hf h => ⟨h.1.of_framed hf, hf.response ▸ h.2⟩

theorem Frames.keeps_begun (hx : Frames x) :
    Keeps (fun w => (Tracked w ∧ NoBody w) ∧ HeaderBegun w) x :=
  hx.keeps (P := fun r => (OutputLifecycle r ∧ r.out.response.bind (·.body) = none) ∧
      r.reqHeaderStartTime.isSome)
    fun _ _ hf h => ⟨⟨h.1.1.of_framed hf, hf.response ▸ h.1.2⟩, hf.headerStart ▸ h.2⟩

end Stable

theorem NoBody.absurd {w : World τ} (h : NoBody w) {p : Prop}
    (hb : (w.runner.out.response.bind (·.body)).isSome) : p := by
  unfold NoBody at h
  simp [h] at hb

theorem noBody_of_unfinished {w : World τ} {st : State τ} (hst : ¬ st.Finished)
    (h : (w.runner.out.response.bind (·.body)).isSome → st.Finished) : NoBody w := by
  unfold NoBody
  cases hb : w.runner.out.response.bind (·.body) with
  | none => rfl
  | some _ => exact absurd (h (by simp [hb])) hst

theorem tracked_setState {w : World τ} (h : Tracked w ∧ NoBody w) {s : State τ}
    (hs : ∀ st ps, s ≠ .sendingBody st ps) :
    Tracked { w with runner := { w.runner with state := s } } ∧
      NoBody { w with runner := { w.runner with state := s } } :=
  ⟨⟨h.1.requestAfterHeader, fun st ps he => absurd he (hs st ps), h.1.responseAfterRead,
    h.2.absurd⟩, h.2⟩

theorem tracked_recordOutputs (startTime : Nat) (t : τ) (w : World τ) (hw : Tracked w)
    (hs : w.runner.state = .invalid) : Tracked (recordOutputs startTime t w).world := by
  have hreq (f : Http1RequestOutput → Http1RequestOutput) :
      (w.runner.out.request.map f).isSome → w.runner.reqHeaderStartTime.isSome :=
    fun h => hw.requestAfterHeader (by rwa [Option.isSome_map'] at h)
  cases hresp : w.runner.out.response with
  | none =>
    cases he : w.runner.endTime <;>
    · simp only [recordOutputs, Exec.bind_apply, getRunner, now, he, hresp, modifyOut,
        modifyRunner, setState, Exec.pure_apply, Outcome.world]
      exact ⟨hreq _, nofun, nofun, fun _ => trivial⟩
  | some resp =>
    have hf := hw.responseAfterRead (by simp [hresp])
    cases he : w.runner.endTime <;> cases hst : w.runner.respStartTime <;>
    · simp only [recordOutputs, Exec.bind_apply, getRunner, now, he, hresp, hst, hs, modifyOut,
        modifyRunner, setState, Exec.pure_apply, Exec.panic_apply, Outcome.world]
      exact ⟨hreq _, nofun, fun _ => hf, fun _ => trivial⟩

theorem keeps_tracked_complete : Keeps Tracked (complete (τ := τ)) := by
  refine leads_takeState_bind (fun _ w => Tracked w ∧ w.runner.state = .invalid)
    (fun _ hw => ⟨hw.take, rfl⟩) fun st => ?_
  cases st with
  | complete t | pending _ t | startFailed t =>
    exact leads_modifyRunner fun _ h =>
      ⟨h.1.requestAfterHeader, fun _ _ => nofun, h.1.responseAfterRead, fun _ => trivial⟩
  | sendingHeader s p | sendingBody s p | receivingHeader s p | receivingBody s p =>
    exact fun w h => tracked_recordOutputs _ _ w h.1 h.2
  | invalid => exact fun _ h => h.1

theorem leads_enterBody (h : Option Nat) :
    Leads (fun w => (Tracked w ∧ NoBody w) ∧ HeaderBegun w) Tracked (enterBody (τ := τ) h) := by
  refine leads_takeState_bind (fun _ w => (Tracked w ∧ NoBody w) ∧ HeaderBegun w)
    (fun _ hw => ⟨⟨hw.1.1.take, hw.1.2⟩, hw.2⟩) fun st => ?_
  cases st with
  | sendingHeader st tr =>
    refine leads_bind frames_getRunner.keeps_begun (fun _ h => h.1.1) fun r =>
      leads_bind (frames_bodyPauses _ _).keeps_begun (fun _ h => h.1.1) fun
        | .error _ => fun _ h => h.1.1
        | .ok writes => fun w₁ h₁ => ?_
    simp only [Exec.bind_apply, setState, modifyOut, modifyRunner, Exec.pure_apply,
      Outcome.world_ret]
    exact ⟨fun _ => h₁.2, fun _ _ _ => rfl, h₁.1.1.responseAfterRead, h₁.1.2.absurd⟩
  | _ => exact fun _ h => h.1.1

theorem keeps_tracked_start (h : Option Nat) : Keeps Tracked (start (τ := τ) h) := by
  refine leads_takeState_bind
    (fun st w => Tracked w ∧ ((w.runner.out.response.bind (·.body)).isSome → st.Finished))
    (fun _ hw => ⟨hw.take, hw.bodyAfterComplete⟩) fun st => ?_
  cases st with
  | pending header transport =>
    dsimp only
    refine leads_pre (Q := fun w => Tracked w ∧ NoBody w)
      (fun _ h => ⟨h.1, noBody_of_unfinished id h.2⟩) ?_
    refine leads_bind frames_transportStart.keeps_noBody (fun _ h => h.1) fun
      | .error e => leads_bind (frames_setError _ _).keeps_noBody (fun _ h => h.1) fun _ =>
          leads_bind (leads_modifyRunner fun _ h => (tracked_setState h (by simp)).1)
            (fun _ h => h) fun _ => keeps_bind keeps_tracked_complete fun _ => keeps_pure _
      | .ok () =>
        leads_bind frames_now.keeps_noBody (fun _ h => h.1) fun _ =>
        leads_bind frames_getRunner.keeps_noBody (fun _ h => h.1) fun _ =>
        leads_bind (leads_modifyRunner fun _ h => tracked_setState h (by simp))
          (fun _ h => h.1) fun _ =>
        leads_bind frames_now.keeps_noBody (fun _ h => h.1) fun _ =>
        leads_bind (leads_modifyRunner fun _ h => ⟨⟨⟨fun _ => rfl, h.1.requestWhileSending,
          h.1.responseAfterRead, h.1.bodyAfterComplete⟩, h.2⟩, rfl⟩) (fun _ h => h.1.1) fun _ =>
        leads_bind (frames_writeAllAt _).keeps_begun (fun _ h => h.1.1) fun
          | .error _ => fun _ h => h.1.1
          | .ok () => leads_enterBody h
  | _ => exact fun _ h => h.1

/-! ## `poll_read`

`poll_read` takes the state out, and its scope guard puts it back however the
call ends. In between the runner passes through states the lifecycle does not
describe (`receive_header` may even set a state of its own, which the guard then
overwrites), so the argument follows what the call keeps of the runner it was
called on. -/

structure ReadKept (r₀ r : Http1Runner τ) : Prop where
  request : r.out.request = r₀.out.request
  headerStart : r.reqHeaderStartTime = r₀.reqHeaderStartTime
  body : (r.out.response.bind (·.body)).isSome → (r₀.out.response.bind (·.body)).isSome
  responseAfterRead : r.out.response.isSome → r.firstRead.isSome

theorem ReadKept.of_framed {r₀ r r' : Http1Runner τ} (h : ReadKept r₀ r) (hf : Framed r r') :
    ReadKept r₀ r' where
  request := hf.request.trans h.request
  headerStart := hf.headerStart.trans h.headerStart
  body := hf.response ▸ h.body
  responseAfterRead := hf.response ▸ hf.firstRead ▸ h.responseAfterRead

theorem ReadKept.restore {r₀ r : Http1Runner τ} (h : ReadKept r₀ r) (hl : OutputLifecycle r₀) :
    OutputLifecycle { r with state := r₀.state } where
  requestAfterHeader := h.request ▸ h.headerStart ▸ hl.requestAfterHeader
  requestWhileSending st ps hs := h.request ▸ hl.requestWhileSending st ps hs
  responseAfterRead := h.responseAfterRead
  bodyAfterComplete hb := hl.bodyAfterComplete (h.body hb)

theorem ReadKept.setState {r₀ r : Http1Runner τ} (h : ReadKept r₀ r) (s : State τ) :
    ReadKept r₀ { r with state := s } :=
  ⟨h.request, h.headerStart, h.body, h.responseAfterRead⟩

theorem bind_body_map_headerDuration (o : Option Http1Response) (d : Option Nat) :
    (o.map fun resp => { resp with headerDuration := d }).bind (·.body) = o.bind (·.body) := by
  cases o <;> rfl

section Read

variable (r₀ : Http1Runner τ)

def ReadOn (w : World τ) : Prop := ReadKept r₀ w.runner

def ReadOnFirst (w : World τ) : Prop := ReadKept r₀ w.runner ∧ w.runner.firstRead.isSome

variable {r₀}

theorem Frames.keeps_readOn {α : Type} {x : M τ α} (hx : Frames x) : Keeps (ReadOn r₀) x :=
  hx.keeps fun _ _ hf h => h.of_framed hf

theorem Frames.keeps_readOnFirst {α : Type} {x : M τ α} (hx : Frames x) :
    Keeps (ReadOnFirst r₀) x :=
  hx.keeps (P := fun r => ReadKept r₀ r ∧ r.firstRead.isSome)
    fun _ _ hf h => ⟨h.1.of_framed hf, hf.firstRead ▸ h.2⟩

theorem frames_timeToFirstByte : Frames (timeToFirstByte (τ := τ)) := by
  refine frames_bind frames_getRunner fun r => ?_
  split
  · exact frames_pure _
  · exact frames_pure _
  · exact fun _ => keeps_panic _

theorem leads_stampFirstRead :
    Leads (ReadOn r₀) (ReadOnFirst r₀)
      (stampOnce (τ := τ) (·.firstRead) fun t r => { r with firstRead := some t }) := by
  intro w hw
  simp only [stampOnce, Exec.bind_apply, getRunner]
  split
  · exact ⟨⟨hw.request, hw.headerStart, hw.body, fun _ => rfl⟩, rfl⟩
  next hn => exact ⟨hw, Option.ne_none_iff_isSome.mp (by simpa using hn)⟩

theorem keeps_readOnFirst_headerComplete (bodyStart t : Nat) :
    Keeps (ReadOnFirst r₀) (headerComplete (τ := τ) bodyStart t) := by
  refine leads_takeState_bind (fun _ => ReadOnFirst r₀) (fun _ h => ⟨h.1.setState _, h.2⟩)
    fun st => ?_
  cases st with
  | receivingHeader startTime transport =>
    refine keeps_bind frames_getRunner.keeps_readOnFirst fun _ =>
      keeps_bind (leads_modifyRunner fun _ h => ⟨h.1.setState _, h.2⟩) fun _ =>
      keeps_bind (leads_modifyRunner fun _ h => ⟨⟨h.1.request, h.1.headerStart,
        fun hb => h.1.body (by simpa [bind_body_map_headerDuration] using hb), fun _ => h.2⟩, h.2⟩)
        fun _ => keeps_bind frames_getRunner.keeps_readOnFirst fun _ => ?_
    dsimp only
    split
    · exact keeps_panic _
    · exact keeps_bind
        (Frames.keeps_readOnFirst (frames_modifyRunner fun _ => ⟨rfl, rfl, rfl, rfl, rfl⟩))
        fun _ => keeps_pure _
  | _ => exact keeps_panic _

theorem keeps_readOnFirst_receiveHeader (parse : Parser) :
    Keeps (ReadOnFirst r₀) (receiveHeader (τ := τ) parse) := by
  refine keeps_bind frames_getRunner.keeps_readOnFirst fun r => ?_
  split
  · exact keeps_pure _
  · refine keeps_bind frames_now.keeps_readOnFirst fun _ =>
      keeps_bind frames_timeToFirstByte.keeps_readOnFirst fun _ =>
      keeps_bind (leads_modifyRunner fun _ h => ⟨⟨h.1.request, h.1.headerStart,
        fun hb => by simp [parsedResponse] at hb, fun _ => h.2⟩, h.2⟩) fun _ => ?_
    split
    · exact keeps_pure _
    · exact keeps_readOnFirst_headerComplete _ _

theorem keeps_readOn_headerLoop (parse : Parser) (cap : Nat) :
    ∀ fuel, Keeps (ReadOn r₀) (headerLoop (τ := τ) parse cap fuel)
  | 0 => keeps_pure _
  | fuel + 1 => keeps_bind (frames_transportRead _).keeps_readOn fun
    | .pending => keeps_pure _
    | .ready (.error _) => keeps_pure _
    | .ready (.ok bs) =>
      keeps_bind (Frames.keeps_readOn (frames_modifyRunner fun _ => ⟨rfl, rfl, rfl, rfl, rfl⟩))
        fun _ => by
        show Keeps _ (if bs.isEmpty then _ else _)
        split
        · exact keeps_pure _
        · refine leads_bind leads_stampFirstRead (fun _ h => h.1) fun _ =>
            leads_bind (keeps_readOnFirst_receiveHeader parse) (fun _ h => h.1) fun
              | .pending => leads_pre (fun _ h => h.1) (keeps_readOn_headerLoop parse cap fuel)
              | .ready (.error _) => fun _ h => h.1
              | .ready (.ok rem) => leads_pre (fun _ h => h.1) ?_
          refine keeps_bind frames_now.keeps_readOn fun _ =>
            keeps_bind
              (Frames.keeps_readOn (frames_modifyRunner fun _ => ⟨rfl, rfl, rfl, rfl, rfl⟩))
              fun _ => ?_
          split
          · exact keeps_panic _
          · exact keeps_pure _

theorem keeps_readOn_readArm (parse : Parser) (cap : Nat) (st : State τ) :
    Keeps (ReadOn r₀) (readArm parse cap st) := by
  cases st with
  | receivingHeader _ _ =>
    refine keeps_bind (frames_transportRead _).keeps_readOn fun poll => ?_
    split
    · exact keeps_bind
        (Frames.keeps_readOn (frames_modifyRunner fun _ => ⟨rfl, rfl, rfl, rfl, rfl⟩))
        fun _ => keeps_pure _
    · exact keeps_pure _
  | receivingBody _ _ =>
    exact keeps_bind
      (Frames.keeps_readOn (frames_stampOnce fun _ _ => ⟨rfl, rfl, rfl, rfl, rfl⟩)) fun _ =>
      keeps_bind keeps_get fun _ => keeps_readOn_headerLoop parse cap _
  | _ => exact keeps_panic _

end Read

theorem keeps_tracked_pollRead (parse : Parser) (cap : Nat) :
    Keeps Tracked (pollRead (τ := τ) parse cap) := by
  intro w hw
  simp only [pollRead, Exec.bind_apply, takeState, Exec.scopeGuard_world]
  have hk : ReadOn w.runner { w with runner := { w.runner with state := .invalid } } :=
    ⟨rfl, rfl, id, hw.responseAfterRead⟩
  exact (keeps_readOn_readArm parse cap _ _ hk).restore hw

/-! ## Every call -/

theorem lifecycle_inductive (parse : Parser) :
    (∀ (t : τ) (p : Http1PlanOutput), OutputLifecycle (new t p)) ∧
      ∀ (c : Call) (w : World τ), OutputLifecycle w.runner →
        OutputLifecycle (c.run parse w).world.runner :=
  ⟨outputLifecycle_new, keeps_run Frames.keeps_tracked parse (keeps_tracked_pollRead parse)
    keeps_tracked_start keeps_tracked_complete⟩

def brokenPipeEnv : Env := scriptEnv [.fail ⟨.other, "broken pipe"⟩] [] []

theorem start_broken_pipe_no_request :
    ∃ w, start (some 0) ⟨new () postPlan, brokenPipeEnv⟩ = .ret (.error "broken pipe") w ∧
      (∃ st ps, w.runner.state = .sendingHeader st ps) ∧ w.runner.reqHeaderStartTime.isSome ∧
      w.runner.out.request = none :=
  ⟨_, rfl, ⟨_, _, rfl⟩, rfl, rfl⟩

end Apivuln.Http1
