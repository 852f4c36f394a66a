import Mathlib.Data.List.Basic

/-!
# The plan executor

`Executor::next` runs the step under its cursor and stores the output of a
named step under its name. The per-protocol `execute` functions are not in
the sources; each call of `next` is handed their outcome (`run`), which may be
any output or error and may read the outputs view. A panic inside an `execute`
is therefore not represented: the only panic of the model is `next`'s own index
past the end of the plan. The `outputs` map is an
association list whose `insert` replaces an existing key, as `HashMap::insert`.

Over any run from `new`, whatever the executions return, the executor has
completed a list of outputs: the cursor stands after them, their steps are
named, the map holds under each name the output of the last of them with that
name, and a panic comes only once the whole plan has completed.
-/

namespace Apivuln.Ql

/-- A plan step: its optional name and its body, which only the step's `execute` reads. -/
structure Step (β : Type) where
  name : Option String
  body : β

abbrev Outputs (σ : Type) := List (String × σ)

def Outputs.insert {σ : Type} (m : Outputs σ) (k : String) (v : σ) : Outputs σ :=
  (k, v) :: m.filter fun kv => kv.1 != k

def Outputs.get? {σ : Type} (m : Outputs σ) (k : String) : Option σ := m.lookup k

/-- `exec::Error` and a step's own error. -/
inductive NextError (ε : Type) where
  | done
  | step (e : ε)
deriving DecidableEq, Repr

/-- What a call of `next` ends in: `Ok`, `Err`, or a panic. -/
inductive Next (ε σ : Type) where
  | ok (out : σ)
  | err (e : NextError ε)
  | panic (msg : String)
deriving DecidableEq, Repr

structure Executor (β σ : Type) where
  steps : List (Step β)
  current : Option Nat
  outputs : Outputs σ

variable {β σ ε : Type}

def Executor.new (steps : List (Step β)) : Executor β σ where
  steps := steps
  current := steps.head?.map fun _ => 0
  outputs := []

/-- `Executor::next`; `run` is the outcome of the current step's `execute` on the view it is
handed. -/
def Executor.next (run : Step β → Outputs σ → Except ε σ) (ex : Executor β σ) :
    Next ε σ × Executor β σ :=
  match ex.current with
  | none => (.err .done, ex)
  | some i =>
    match ex.steps[i]? with
    | none => (.panic ("index out of bounds: the len is " ++ toString ex.steps.length ++
        " but the index is " ++ toString i), ex)
    | some step =>
      match run step ex.outputs with
      | .error e => (.err (.step e), ex)
      | .ok out =>
        match step.name with
        | none => (.ok out, ex)
        | some name => (.ok out, { ex with outputs := ex.outputs.insert name out, current := some (i + 1) })

/-- `next` on every outcome in `runs`, one call each. -/
def Executor.run : List (Step β → Outputs σ → Except ε σ) → Executor β σ →
    List (Next ε σ) × Executor β σ
  | [], ex => ([], ex)
  | r :: rs, ex =>
    let (res, ex') := ex.next r
    let (ress, ex'') := Executor.run rs ex'
    (res :: ress, ex'')

@[simp] theorem Executor.next_steps (run : Step β → Outputs σ → Except ε σ) (ex : Executor β σ) :
    (ex.next run).2.steps = ex.steps := by
  unfold Executor.next
  split
  · rfl
  · split
    · rfl
    · split
      · rfl
      · split <;> rfl

theorem Executor.next_done_iff (run : Step β → Outputs σ → Except ε σ) (ex : Executor β σ) :
    (ex.next run).1 = .err .done ↔ ex.current = none := by
  unfold Executor.next
  split
  · simpa
  · split
    · simp_all
    · split
      · simp_all
      · split <;> simp_all

theorem Executor.next_current_isSome (run : Step β → Outputs σ → Except ε σ) (ex : Executor β σ)
    (h : ex.current.isSome) : (ex.next run).2.current.isSome := by
  unfold Executor.next
  split
  · exact h
  · split
    · exact h
    · split
      · exact h
      · split
        · exact h
        · rfl

theorem Executor.new_current_isSome {steps : List (Step β)} (h : steps ≠ []) :
    (Executor.new steps : Executor β σ).current.isSome := by
  cases steps with
  | nil => exact absurd rfl h
  | cons s rest => rfl

/-- On a plan with a step, no call of `next` in any run returns `Err(Done)`. -/
theorem Executor.new_run_never_done (steps : List (Step β)) (h : steps ≠ [])
    (runs : List (Step β → Outputs σ → Except ε σ)) :
    .err .done ∉ ((Executor.new steps : Executor β σ).run runs).1 := by
  have hcur := Executor.new_current_isSome (σ := σ) h
  generalize (Executor.new steps : Executor β σ) = ex at hcur ⊢
  induction runs generalizing ex with
  | nil => simp [Executor.run]
  | cons r rs ih =>
    have hd : (ex.next r).1 ≠ .err .done := by
      rw [Ne, Executor.next_done_iff]
      simpa [Option.isSome_iff_ne_none] using hcur
    simpa [Executor.run, Ne.symm hd] using ih _ (Executor.next_current_isSome r ex hcur)

theorem Executor.new_run_never_done_one_step :
    [(⟨some "a", ()⟩ : Step Unit)] ≠ [] ∧
      .err .done ∉ ((Executor.new [⟨some "a", ()⟩] : Executor Unit Nat).run
        [fun _ _ => (.ok 1 : Except String Nat), fun _ _ => .ok 2]).1 :=
  ⟨by simp, Executor.new_run_never_done _ (by simp) _⟩

/-- After a one-step plan's named step, the next call indexes past the plan and panics. -/
example : ((Executor.new [⟨some "a", ()⟩] : Executor Unit Nat).run
    [fun _ _ => (.ok 1 : Except String Nat), fun _ _ => .ok 2]).1 =
      [.ok 1, .panic "index out of bounds: the len is 1 but the index is 1"] := by
  rfl

/-! ## What a run has completed -/

theorem Outputs.lookup_cons (k k' : String) (v : σ) (m : Outputs σ) :
    ((k, v) :: m).lookup k' = if k' = k then some v else m.lookup k' := by
  by_cases h : k' = k
  · simp [h]
  · rw [List.lookup_cons, show (k' == k) = false by simpa using h, if_neg h]

theorem Outputs.lookup_filter_ne (m : Outputs σ) (k k' : String) :
    (m.filter fun kv => kv.1 != k).lookup k' = if k' = k then none else m.lookup k' := by
  induction m with
  | nil => simp
  | cons kv m ih =>
    obtain ⟨a, v⟩ := kv
    by_cases h : a = k
    · subst h
      simp only [List.filter_cons, bne_self_eq_false, Bool.false_eq_true, if_false, ih,
        Outputs.lookup_cons]
      split_ifs <;> rfl
    · simp only [List.filter_cons, bne_iff_ne, ne_eq, h, not_false_eq_true, if_true,
        Outputs.lookup_cons, ih]
      split_ifs <;> first | rfl | simp_all

@[simp] theorem Outputs.get?_insert (m : Outputs σ) (k k' : String) (v : σ) :
    (m.insert k v).get? k' = if k' = k then some v else m.get? k' := by
  simp only [Outputs.insert, Outputs.get?, Outputs.lookup_cons, Outputs.lookup_filter_ne]
  split_ifs <;> rfl

theorem Outputs.keys_nodup_insert {m : Outputs σ} (h : (m.map Prod.fst).Nodup) (k : String) (v : σ) :
    ((m.insert k v).map Prod.fst).Nodup := by
  simp only [Outputs.insert, List.map_cons, List.nodup_cons]
  exact ⟨by simp [List.mem_filter], ((List.filter_sublist m).map _).nodup h⟩

theorem zip_snoc {s : Step β} : ∀ {steps : List (Step β)} {done : List σ} (out : σ),
    steps[done.length]? = some s → steps.zip (done ++ [out]) = steps.zip done ++ [(s, out)]
  | [], _, _, h => by simp at h
  | t :: steps, [], out, h => by simp at h; simp [h]
  | t :: steps, d :: done, out, h => by
    simpa using zip_snoc out (by simpa using h : steps[done.length]? = some s)

def lastOutput (steps : List (Step β)) (done : List σ) (k : String) : Option σ :=
  ((steps.zip done).reverse.find? fun p => p.1.name == some k).map Prod.snd

theorem lastOutput_snoc {steps : List (Step β)} {done : List σ} {s : Step β}
    (hs : steps[done.length]? = some s) (out : σ) (k : String) :
    lastOutput steps (done ++ [out]) k = if s.name = some k then some out else lastOutput steps done k := by
  by_cases hk : s.name = some k <;> simp [lastOutput, zip_snoc out hs, hk]

/-- An executor that has completed the steps before its cursor, with outputs `done`: each of them
is named, and the map holds, under each name, the output of the last of them with that name. -/
structure Executor.Completed (ex : Executor β σ) (done : List σ) : Prop where
  cursor : ex.current = ex.steps.head?.map fun _ => done.length
  bound : done.length ≤ ex.steps.length
  named : ∀ s ∈ ex.steps.take done.length, s.name.isSome
  stored : ∀ k, ex.outputs.get? k = lastOutput ex.steps done k
  keys : (ex.outputs.map Prod.fst).Nodup

theorem Executor.new_completed (steps : List (Step β)) :
    (Executor.new steps : Executor β σ).Completed [] :=
  ⟨rfl, Nat.zero_le _, by simp, fun _ => by simp [lastOutput, Executor.new, Outputs.get?],
    List.nodup_nil⟩

theorem Executor.Completed.advance {ex : Executor β σ} {done : List σ} {s : Step β} {name : String}
    (h : ex.Completed done) (hs : ex.steps[done.length]? = some s) (hn : s.name = some name)
    (out : σ) :
    ({ ex with outputs := ex.outputs.insert name out, current := some (done.length + 1) } :
      Executor β σ).Completed (done ++ [out]) where
  cursor := by
    show some _ = ex.steps.head?.map _
    cases hst : ex.steps with
    | nil => simp [hst] at hs
    | cons t ts => simp
  bound := by simpa using (List.getElem?_eq_some_iff.mp hs).1
  named := by
    simp only [List.length_append, List.length_singleton, List.take_succ, hs, Option.toList_some,
      List.mem_append, List.mem_singleton]
    rintro t (ht | rfl)
    · exact h.named t ht
    · simp [hn]
  stored k := by
    simp only [Outputs.get?_insert, h.stored, lastOutput_snoc hs, hn, Option.some.injEq]
    simp only [@eq_comm _ name k]
  keys := Outputs.keys_nodup_insert h.keys name out

@[simp] theorem Executor.run_cons (r : Step β → Outputs σ → Except ε σ) (rs) (ex : Executor β σ) :
    ex.run (r :: rs) = ((ex.next r).1 :: ((ex.next r).2.run rs).1, ((ex.next r).2.run rs).2) :=
  rfl

theorem Executor.Completed.next {ex : Executor β σ} {done : List σ} (h : ex.Completed done)
    (r : Step β → Outputs σ → Except ε σ) :
    ((ex.next r).2 = ex ∧ ∀ m, (ex.next r).1 = .panic m → done.length = ex.steps.length ∧
      m = "index out of bounds: the len is " ++ toString ex.steps.length ++
        " but the index is " ++ toString ex.steps.length) ∨
    ∃ out, (ex.next r).1 = .ok out ∧ (ex.next r).2.Completed (done ++ [out]) := by
  unfold Executor.next
  split
  · exact .inl ⟨rfl, by simp⟩
  · next i hi =>
    obtain rfl : i = done.length := by
      obtain ⟨_, _, hd⟩ := Option.map_eq_some'.mp (hi ▸ h.cursor).symm
      exact hd.symm
    split
    · next hs =>
      have hlen : done.length = ex.steps.length :=
        le_antisymm h.bound (List.getElem?_eq_none_iff.mp hs)
      exact .inl ⟨rfl, fun m hm => ⟨hlen, by cases hm; rw [hlen]⟩⟩
    · next s hs =>
      split
      · exact .inl ⟨rfl, by simp⟩
      · next out _ =>
        split
        · exact .inl ⟨rfl, by simp⟩
        · next name hn => exact .inr ⟨out, rfl, h.advance hs hn out⟩

theorem Executor.Completed.run {ex : Executor β σ} {done : List σ} (h : ex.Completed done) :
    ∀ rs : List (Step β → Outputs σ → Except ε σ), ∃ more,
      (ex.run rs).2.Completed (done ++ more) ∧ (more.map Next.ok).Sublist (ex.run rs).1 ∧
      ∀ m, .panic m ∈ (ex.run rs).1 → (∀ s ∈ ex.steps, s.name.isSome) ∧
        m = "index out of bounds: the len is " ++ toString ex.steps.length ++
          " but the index is " ++ toString ex.steps.length := by
  intro rs
  induction rs generalizing ex done with
  | nil => exact ⟨[], by simpa using h, .slnil, by simp [Executor.run]⟩
  | cons r rs ih =>
    rcases h.next r with ⟨hex, hp⟩ | ⟨out, hres, hc⟩
    · obtain ⟨more, hc, hsub, hpan⟩ := ih h
      rw [Executor.run_cons, hex]
      refine ⟨more, hc, hsub.cons _, fun m hm => ?_⟩
      rcases List.mem_cons.mp hm with hm | hm
      · obtain ⟨hl, rfl⟩ := hp m hm.symm
        exact ⟨fun s hs => h.named s (by rwa [hl, List.take_length]), rfl⟩
      · exact hpan m hm
    · obtain ⟨more, hc', hsub, hpan⟩ := ih hc
      rw [Executor.next_steps] at hpan
      rw [Executor.run_cons, hres]
      refine ⟨out :: more, by simpa using hc', hsub.cons₂ _, fun m hm => ?_⟩
      rcases List.mem_cons.mp hm with hm | hm
      · cases hm
      · exact hpan m hm

/-- In every run of a plan, the executor has completed some outputs `done`, each of them returned
by a call in the run in that order: the cursor stands after them, the steps they came from are
named, and the map holds under each name exactly the output of the last completed step with
that name, with no name twice. -/
theorem Executor.new_run_completed (steps : List (Step β))
    (runs : List (Step β → Outputs σ → Except ε σ)) :
    ∃ done, ((Executor.new steps : Executor β σ).run runs).2.Completed done ∧
      (done.map Next.ok).Sublist ((Executor.new steps : Executor β σ).run runs).1 := by
  obtain ⟨done, hc, hsub, -⟩ := (Executor.new_completed (σ := σ) steps).run runs
  exact ⟨done, hc, hsub⟩

/-- In every run of a plan, a call panics only once every step has completed, all of them named:
the cursor then indexes one past the end. -/
theorem Executor.new_run_panics_at_end (steps : List (Step β))
    (runs : List (Step β → Outputs σ → Except ε σ)) (m : String)
    (hm : .panic m ∈ ((Executor.new steps : Executor β σ).run runs).1) :
    (∀ s ∈ steps, s.name.isSome) ∧ m = "index out of bounds: the len is " ++
      toString steps.length ++ " but the index is " ++ toString steps.length :=
  have ⟨_, _, _, hp⟩ := (Executor.new_completed (σ := σ) steps).run runs
  hp m hm

theorem Executor.new_run_panics_at_end_one_step :
    .panic "index out of bounds: the len is 1 but the index is 1" ∈
      ((Executor.new [⟨some "a", ()⟩] : Executor Unit Nat).run
        [fun _ _ => (.ok 1 : Except String Nat), fun _ _ => .ok 2]).1 ∧
    (∀ s ∈ [(⟨some "a", ()⟩ : Step Unit)], s.name.isSome) ∧
      "index out of bounds: the len is 1 but the index is 1" = "index out of bounds: the len is " ++
        toString [(⟨some "a", ()⟩ : Step Unit)].length ++ " but the index is " ++
        toString [(⟨some "a", ()⟩ : Step Unit)].length :=
  have hm : .panic "index out of bounds: the len is 1 but the index is 1" ∈
      ((Executor.new [⟨some "a", ()⟩] : Executor Unit Nat).run
        [fun _ _ => (.ok 1 : Except String Nat), fun _ _ => .ok 2]).1 := .tail _ (.head _)
  ⟨hm, Executor.new_run_panics_at_end _ _ _ hm⟩

end Apivuln.Ql
