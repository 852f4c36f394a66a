import Apivuln.Plan

/-!
# The HTTP/1 request header block

`compute_header` builds the request line and one line per planned header in a
single buffer, reserved beforehand at exactly the block's length plus the
body's. The request line puts the method and the version only when the plan
has them, and nothing reads `add_content_length`: the policy leaves the block
unchanged. The spec's wording of the block (defaults `GET` and
`HTTP/1.1`, a `Content-Length` line by policy) is stated beside it for
comparison.
-/

namespace Apivuln.Http1

def sp : UInt8 := 32
def question : UInt8 := 63
def crlf : Bytes := [13, 10]
def colonSpace : Bytes := [58, 32]

/-- The puts of `compute_header` before its header loop. -/
def requestLine (plan : Http1PlanOutput) : Bytes :=
  let buf := match plan.method with
    | some m => m
    | none => []
  let buf := buf ++ [sp] ++ plan.url.path
  let buf := match plan.url.query with
    | some q => buf ++ [question] ++ q
    | none => buf
  let buf := buf ++ [sp]
  let buf := match plan.versionString with
    | some p => buf ++ p
    | none => buf
  buf ++ crlf

/-- One pass of the header loop. -/
def putHeader (buf : Bytes) (kv : Bytes × Bytes) : Bytes :=
  buf ++ kv.1 ++ colonSpace ++ kv.2 ++ crlf

def computeHeader (plan : Http1PlanOutput) : Bytes :=
  plan.headers.foldl putHeader (requestLine plan) ++ crlf

def headerLine (kv : Bytes × Bytes) : Bytes := kv.1 ++ colonSpace ++ kv.2 ++ crlf

def fieldLines (hs : List (Bytes × Bytes)) : Bytes := (hs.map headerLine).flatten

@[simp] theorem fieldLines_nil : fieldLines [] = [] := rfl

@[simp] theorem fieldLines_cons (kv : Bytes × Bytes) (hs : List (Bytes × Bytes)) :
    fieldLines (kv :: hs) = headerLine kv ++ fieldLines hs := rfl

theorem foldl_putHeader (hs : List (Bytes × Bytes)) (buf : Bytes) :
    hs.foldl putHeader buf = buf ++ fieldLines hs := by
  induction hs generalizing buf with
  | nil => simp
  | cons kv hs ih => simp [ih, putHeader, headerLine]

theorem requestLine_eq (p : Http1PlanOutput) :
    requestLine p = p.method.getD [] ++ sp :: p.url.path ++
      (p.url.query.map (question :: ·)).getD [] ++ sp :: p.versionString.getD [] ++ crlf := by
  rcases p with ⟨⟨path, _ | q⟩, _ | m, _ | v, _, _, _, _⟩ <;> simp [requestLine]

theorem computeHeader_cons (p : Http1PlanOutput) : ∃ b bs, computeHeader p = b :: bs := by
  cases h : computeHeader p with
  | nil => simp [computeHeader, crlf] at h
  | cons b bs => exact ⟨b, bs, rfl⟩

/-- The capacity `compute_header` reserves before its puts: their lengths, and the body's. -/
def headerCapacity (plan : Http1PlanOutput) : Nat :=
  (plan.method.map List.length).getD 0 + 1 + plan.url.path.length +
    (plan.url.query.map fun x => x.length + 1).getD 0 + 1 +
    (plan.versionString.map List.length).getD 0 + 2 +
    plan.headers.foldl (fun sum kv => sum + kv.1.length + 2 + kv.2.length + 2) 0 + 2 +
    plan.body.length

theorem foldl_headerLength (hs : List (Bytes × Bytes)) (acc : Nat) :
    hs.foldl (fun sum kv => sum + kv.1.length + 2 + kv.2.length + 2) acc =
      acc + (fieldLines hs).length := by
  induction hs generalizing acc with
  | nil => simp
  | cons kv hs ih => simp [ih, headerLine, colonSpace, crlf]; omega

/-- The reserved capacity is exactly the block and the body: each summand is the length of one
put, so the buffer takes the block without growing and has room left for the body alone. -/
theorem headerCapacity_eq (p : Http1PlanOutput) :
    headerCapacity p = (computeHeader p).length + p.body.length := by
  have hm : (p.method.map List.length).getD 0 = (p.method.getD []).length := by
    cases p.method <;> rfl
  have hq : (p.url.query.map fun x => x.length + 1).getD 0 =
      ((p.url.query.map (question :: ·)).getD []).length := by
    cases p.url.query <;> rfl
  have hv : (p.versionString.map List.length).getD 0 = (p.versionString.getD []).length := by
    cases p.versionString <;> rfl
  simp only [headerCapacity, computeHeader, foldl_putHeader, requestLine_eq, foldl_headerLength,
    hm, hq, hv, List.length_append, List.length_cons, List.length_nil, crlf]
  omega

/-! The block as the spec words it. -/

def defaultMethod : Bytes := [71, 69, 84]  -- GET

def defaultVersion : Bytes := [72, 84, 84, 80, 47, 49, 46, 49]  -- HTTP/1.1

def contentLengthName : Bytes :=
  [99, 111, 110, 116, 101, 110, 116, 45, 108, 101, 110, 103, 116, 104]  -- content-length

def decimal (n : Nat) : Bytes := (Nat.toDigits 10 n).map fun c => c.toNat.toUInt8

-- Content-Length: <len> CRLF
def contentLengthLine (body : Bytes) : Bytes :=
  [67, 111, 110, 116, 101, 110, 116, 45, 76, 101, 110, 103, 116, 104] ++ colonSpace ++
    decimal body.length ++ crlf

def lowerAscii (b : UInt8) : UInt8 := if 65 ≤ b ∧ b ≤ 90 then b + 32 else b

def eqIgnoreAsciiCase (a b : Bytes) : Bool := a.map lowerAscii == b.map lowerAscii

/-- Whether the spec's `add_content_length` policy asks for a runner-added line. -/
def specAddsContentLength (p : Http1PlanOutput) : Bool :=
  match p.addContentLength with
  | .never => false
  | .always => true
  | .auto => !p.body.isEmpty && !p.headers.any fun kv => eqIgnoreAsciiCase kv.1 contentLengthName

/-- The request line with the spec's defaults. -/
def specRequestLine (p : Http1PlanOutput) : Bytes :=
  p.method.getD defaultMethod ++ sp :: p.url.path ++ (p.url.query.map (question :: ·)).getD [] ++
    sp :: p.versionString.getD defaultVersion ++ crlf

/-! Two plans: `/` with neither method nor version, and the spec's `POST` of `x=1`. -/

def emptyPause : Http1PlanPauseOutput := ⟨⟨[], []⟩, ⟨[], []⟩, ⟨[], []⟩, ⟨[], []⟩⟩

def rootPlan : Http1PlanOutput where
  url := ⟨[47], none⟩
  method := none
  versionString := none
  addContentLength := .never
  headers := []
  body := []
  pause := emptyPause

def postPlan : Http1PlanOutput where
  url := ⟨[47], none⟩
  method := some [80, 79, 83, 84]
  versionString := some defaultVersion
  addContentLength := .auto
  headers := [([72, 111, 115, 116], [104])]
  body := [120, 61, 49]
  pause := emptyPause

/-- The block is the method and the version only when the plan has them, with no default. -/
theorem computeHeader_eq (p : Http1PlanOutput) :
    computeHeader p = p.method.getD [] ++ sp :: p.url.path ++
      (p.url.query.map (question :: ·)).getD [] ++ sp :: p.versionString.getD [] ++ crlf ++
      fieldLines p.headers ++ crlf := by
  rw [computeHeader, foldl_putHeader, requestLine_eq]

/-- For `/` with neither method nor version the block is ` / ` and two CRLFs, not the spec's
`GET / HTTP/1.1`. -/
theorem computeHeader_rootPlan_no_defaults :
    computeHeader rootPlan = [sp, 47, sp] ++ crlf ++ crlf ∧
      computeHeader rootPlan ≠ specRequestLine rootPlan ++ fieldLines rootPlan.headers ++ crlf := by
  decide

/-- The spec's `auto` policy asks for `Content-Length: 3` on the `POST` of `x=1`; the block has no
such line. -/
theorem computeHeader_postPlan_no_contentLength :
    specAddsContentLength postPlan = true ∧
      ¬ contentLengthLine postPlan.body <:+: computeHeader postPlan := by
  decide

end Apivuln.Http1
