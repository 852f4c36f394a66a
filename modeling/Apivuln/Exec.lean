import Mathlib.Data.List.Infix
import Mathlib.Algebra.Group.Nat.Basic

/-!
# Calls that return, panic or wait forever

The runner is driven by async Rust. A call into it returns a value, panics
(`panic!`, `unwrap` on `None`, a failed `expect`), or waits forever on a
transport that never answers again. `Exec σ α` is a state monad over the world
`σ` whose outcome records which; the world is kept on a panic, since scope
guards restore state while unwinding and what the transport saw stays seen.
-/

namespace Apivuln

abbrev Bytes := List UInt8

/-- `std::task::Poll`. -/
inductive Poll (α : Type) where
  | ready (a : α)
  | pending
deriving DecidableEq, Repr

def Poll.isReady {α : Type} : Poll α → Bool
  | .ready _ => true
  | .pending => false

/-- `std::io::ErrorKind`, with the kinds the runner builds itself named and every other kind
carried by its description (what `kind().to_string()` prints). -/
inductive ErrorKind where
  | unexpectedEof
  | writeZero
  | other
  | described (text : String)
deriving DecidableEq, Repr

def ErrorKind.toString : ErrorKind → String
  | .unexpectedEof => "unexpected end of file"
  | .writeZero => "write zero"
  | .other => "other error"
  | .described text => text

/-- `std::io::Error`: its kind and what its `to_string()` prints. -/
structure IoError where
  kind : ErrorKind
  message : String
deriving DecidableEq, Repr

inductive Outcome (σ α : Type) where
  | ret (a : α) (s : σ)
  | panic (msg : String) (s : σ)
  | stall (s : σ)

def Outcome.world {σ α : Type} : Outcome σ α → σ
  | .ret _ s => s
  | .panic _ s => s
  | .stall s => s

@[simp] theorem Outcome.world_ret {σ α : Type} (a : α) (s : σ) : (Outcome.ret a s).world = s := rfl

@[simp] theorem Outcome.world_panic {σ α : Type} (m : String) (s : σ) :
    (Outcome.panic m s : Outcome σ α).world = s := rfl

@[simp] theorem Outcome.world_stall {σ α : Type} (s : σ) : (Outcome.stall s : Outcome σ α).world = s :=
  rfl

def Exec (σ α : Type) : Type := σ → Outcome σ α

namespace Exec

variable {σ α β : Type}

def bind (x : Exec σ α) (f : α → Exec σ β) : Exec σ β := fun s =>
  match x s with
  | .ret a s' => f a s'
  | .panic m s' => .panic m s'
  | .stall s' => .stall s'

instance : Monad (Exec σ) where
  pure a := fun s => .ret a s
  bind := bind

def get : Exec σ σ := fun s => .ret s s

def panic (msg : String) : Exec σ α := fun s => .panic msg s

def stall : Exec σ α := fun s => .stall s

/-- Run `body`, then apply `restore` to the world however the body ended (a `scopeguard`). -/
def scopeGuard (body : Exec σ α) (restore : σ → σ) : Exec σ α := fun s =>
  match body s with
  | .ret a s' => .ret a (restore s')
  | .panic m s' => .panic m (restore s')
  | .stall s' => .stall (restore s')

@[simp] theorem scopeGuard_world (body : Exec σ α) (restore : σ → σ) (s : σ) :
    (scopeGuard body restore s).world = restore (body s).world := by
  unfold scopeGuard
  cases body s <;> rfl

@[simp] theorem pure_apply (a : α) (s : σ) : (pure a : Exec σ α) s = .ret a s := rfl

@[simp] theorem get_apply (s : σ) : get s = .ret s s := rfl

@[simp] theorem panic_apply (msg : String) (s : σ) : (panic msg : Exec σ α) s = .panic msg s :=
  rfl

@[simp] theorem stall_apply (s : σ) : (stall : Exec σ α) s = .stall s := rfl

theorem bind_apply (x : Exec σ α) (f : α → Exec σ β) (s : σ) :
    (x >>= f) s = match x s with
      | .ret a s' => f a s'
      | .panic m s' => .panic m s'
      | .stall s' => .stall s' := rfl

theorem bind_eq_panic {x : Exec σ α} {f : α → Exec σ β} {s s' : σ} {m : String}
    (h : (x >>= f) s = .panic m s') :
    x s = .panic m s' ∨ ∃ a s₁, x s = .ret a s₁ ∧ f a s₁ = .panic m s' := by
  rw [bind_apply] at h
  cases hx : x s <;> rw [hx] at h
  · exact .inr ⟨_, _, rfl, h⟩
  · cases h; exact .inl rfl
  · cases h

/-- From a world where `P` holds, `x` ends, however it ends, in a world where `Q` holds. -/
def Leads (P Q : σ → Prop) (x : Exec σ α) : Prop := ∀ s, P s → Q (x s).world

/-- `x` keeps `P`. -/
def Keeps (P : σ → Prop) (x : Exec σ α) : Prop := Leads P P x

variable {P Q R : σ → Prop}

theorem keeps_pure (a : α) : Keeps P (pure a : Exec σ α) := fun _ h => h

theorem keeps_get : Keeps P get := fun _ h => h

theorem keeps_panic (msg : String) : Keeps P (panic msg : Exec σ α) := fun _ h => h

theorem keeps_stall : Keeps P (stall : Exec σ α) := fun _ h => h

theorem leads_bind {x : Exec σ α} {f : α → Exec σ β} (hx : Leads P Q x) (hQR : ∀ s, Q s → R s)
    (hf : ∀ a, Leads Q R (f a)) : Leads P R (x >>= f) := by
  intro s hs
  have hq := hx s hs
  rw [bind_apply]
  cases h : x s with
  | ret a s' => rw [h] at hq; exact hf a s' hq
  | panic m s' => rw [h] at hq; exact hQR _ hq
  | stall s' => rw [h] at hq; exact hQR _ hq

theorem leads_pre {x : Exec σ α} (h : ∀ s, P s → Q s) (hx : Leads Q R x) : Leads P R x :=
  fun s hs => hx s (h s hs)

theorem keeps_bind {x : Exec σ α} {f : α → Exec σ β} (hx : Keeps P x) (hf : ∀ a, Keeps P (f a)) :
    Keeps P (x >>= f) :=
  leads_bind hx (fun _ h => h) hf

theorem leads_bind_ret {x : Exec σ α} {f : α → Exec σ β} (S : α → σ → Prop)
    (hx : Leads P Q x) (hS : ∀ s a s', P s → x s = .ret a s' → S a s') (hQR : ∀ s, Q s → R s)
    (hf : ∀ a, Leads (fun s => Q s ∧ S a s) R (f a)) : Leads P R (x >>= f) := by
  intro s hs
  have hq := hx s hs
  rw [bind_apply]
  cases h : x s with
  | ret a s' => rw [h] at hq; exact hf a s' ⟨hq, hS s a s' hs h⟩
  | panic m s' => rw [h] at hq; exact hQR _ hq
  | stall s' => rw [h] at hq; exact hQR _ hq

end Exec

end Apivuln
