import Mathlib.Data.List.DropRight
import Apivuln.Http1.Header

/-!
# Reading the header block back

What a server reads from the block `compute_header` writes. The spec says the request the
runner sends follows RFC 7230; the reader below is that grammar's request head for an
origin-form target, written as a decoder that hands back the bytes after the head. It is not
code of the runner. It checks that the method and every field name are tokens, that the target
is an absolute path with an optional query whose percent signs each start an escape, that the
version is `HTTP/` digit `.` digit, and that every field value is visible bytes, spaces and
tabs. Lines end at CRLF only, a line that starts with whitespace is no field line (there is no
obsolete folding), and the whitespace around a value is dropped. The byte classes are the
grammar's: `tchar` and `token`; `targetByte` (`pchar`, `/`, `?`) and `pctValid` for
`origin-form`; `httpVersion`; `fieldByte` (VCHAR, obs-text, SP, HTAB), `isOws` and
`fieldValue`.

Every head the reader accepts is well formed, and the block of a plan whose method, target,
version and headers are well formed reads back as exactly those, with the body left over.
-/

namespace Apivuln.Http1

def cutAt (d : UInt8) : Bytes → Option (Bytes × Bytes)
  | [] => none
  | b :: bs => if b = d then some ([], bs) else (cutAt d bs).map fun r => (b :: r.1, r.2)

theorem cutAt_append {d : UInt8} {a : Bytes} (ha : d ∉ a) (b : Bytes) :
    cutAt d (a ++ d :: b) = some (a, b) := by
  induction a with
  | nil => simp [cutAt]
  | cons x a ih =>
    have hx : x ≠ d := fun h => ha (h ▸ .head _)
    simp [cutAt, hx, ih (fun h => ha (.tail _ h))]

/-! ## Byte classes -/

def digit (b : UInt8) : Bool := 48 ≤ b && b ≤ 57

def alpha (b : UInt8) : Bool := (65 ≤ b && b ≤ 90) || (97 ≤ b && b ≤ 122)

def hexDigit (b : UInt8) : Bool := digit b || (65 ≤ b && b ≤ 70) || (97 ≤ b && b ≤ 102)

def tchar (b : UInt8) : Bool :=
  digit b || alpha b || [33, 35, 36, 37, 38, 39, 42, 43, 45, 46, 94, 95, 96, 124, 126].contains b

def token (bs : Bytes) : Bool := !bs.isEmpty && bs.all tchar

def targetByte (b : UInt8) : Bool :=
  digit b || alpha b ||
    [45, 46, 95, 126, 33, 36, 38, 39, 40, 41, 42, 43, 44, 59, 61, 58, 64, 47, 63, 37].contains b

def pctValid : Bytes → Bool
  | [] => true
  | b :: rest =>
    if b = 37 then
      match rest with
      | x :: y :: r => hexDigit x && hexDigit y && pctValid r
      | _ => false
    else pctValid rest

def originForm (t : Bytes) : Bool := t.head? == some 47 && t.all targetByte && pctValid t

def httpVersion (v : Bytes) : Bool :=
  match v with
  | [h, t₁, t₂, p, s, a, d, b] => [h, t₁, t₂, p, s, d] == [72, 84, 84, 80, 47, 46] && digit a && digit b
  | _ => false

def fieldByte (b : UInt8) : Bool := b = 9 || (32 ≤ b && b ≤ 126) || 128 ≤ b

def isOws (b : UInt8) : Bool := b = 32 || b = 9

def trimOws (l : Bytes) : Bytes := (l.dropWhile isOws).rdropWhile isOws

def fieldValue (v : Bytes) : Bool := v.all fieldByte && trimOws v == v

theorem not_mem_of_all {c : UInt8 → Bool} {d : UInt8} (hd : c d = false) {bs : Bytes}
    (h : bs.all c = true) : d ∉ bs :=
  fun hm => by simpa [hd] using List.all_eq_true.mp h d hm

theorem token_all {bs : Bytes} (h : token bs = true) : bs.all tchar = true := by
  simp only [token, Bool.and_eq_true] at h
  exact h.2

theorem originForm_all {t : Bytes} (h : originForm t = true) : t.all targetByte = true := by
  simp only [originForm, Bool.and_eq_true] at h
  exact h.1.2

theorem digit_ne_cr {a : UInt8} (h : digit a = true) : a ≠ 13 := by
  rintro rfl
  exact absurd h (by decide)

theorem httpVersion_cr {v : Bytes} (h : httpVersion v = true) : 13 ∉ v := by
  match v, h with
  | [_, _, _, _, _, a, _, b], hv =>
    simp only [httpVersion, Bool.and_eq_true, beq_iff_eq, List.cons.injEq, and_true] at hv
    obtain ⟨⟨⟨rfl, rfl, rfl, rfl, rfl, rfl⟩, ha⟩, hb⟩ := hv
    simp only [List.mem_cons, List.not_mem_nil, or_false, not_or]
    exact ⟨by decide, by decide, by decide, by decide, by decide, (digit_ne_cr ha).symm, by decide,
      (digit_ne_cr hb).symm⟩

theorem fieldValue_all {v : Bytes} (h : fieldValue v = true) : v.all fieldByte = true := by
  simp only [fieldValue, Bool.and_eq_true] at h
  exact h.1

theorem trimOws_sp_cons {v : Bytes} (h : fieldValue v = true) : trimOws (sp :: v) = v := by
  simp only [fieldValue, Bool.and_eq_true, beq_iff_eq] at h
  have h₂ := h.2
  rw [trimOws] at h₂ ⊢
  rwa [List.dropWhile_cons_of_pos (by rfl)]

theorem fieldValue_trimOws {raw : Bytes} (h : raw.all fieldByte = true) :
    fieldValue (trimOws raw) = true := by
  have hpre : trimOws raw <+: raw.dropWhile isOws := List.rdropWhile_prefix _ _
  have hsub : trimOws raw <:+: raw := hpre.isInfix.trans (List.dropWhile_suffix isOws).isInfix
  have hd : (trimOws raw).dropWhile isOws = trimOws raw := by
    refine List.dropWhile_eq_self_iff.mpr fun hl => ?_
    have hl' : 0 < (raw.dropWhile isOws).length := hl.trans_le hpre.length_le
    simpa [List.get_eq_getElem, hpre.getElem hl] using List.dropWhile_get_zero_not isOws raw hl'
  simp only [fieldValue, Bool.and_eq_true, beq_iff_eq, List.all_eq_true]
  refine ⟨fun x hx => List.all_eq_true.mp h x (hsub.subset hx), ?_⟩
  rw [trimOws, hd]
  exact List.rdropWhile_idempotent _ _

/-! ## The reader -/

structure RequestHead where
  method : Bytes
  target : Bytes
  version : Bytes
  fields : List (Bytes × Bytes)
deriving DecidableEq, Repr

structure RequestHead.WellFormed (h : RequestHead) : Prop where
  method : token h.method = true
  target : originForm h.target = true
  version : httpVersion h.version = true
  fields : ∀ kv ∈ h.fields, token kv.1 = true ∧ fieldValue kv.2 = true

def readLine (bs : Bytes) : Option (Bytes × Bytes) :=
  match cutAt 13 bs with
  | some (line, 10 :: rest) => some (line, rest)
  | _ => none

def readRequestLine (line : Bytes) : Option (Bytes × Bytes × Bytes) := do
  let (method, r) ← cutAt sp line
  let (target, version) ← cutAt sp r
  if token method && originForm target && httpVersion version then some (method, target, version)
  else none

def readFieldLine (line : Bytes) : Option (Bytes × Bytes) := do
  let (name, raw) ← cutAt 58 line
  if token name && raw.all fieldByte then some (name, trimOws raw) else none

def readFields : Nat → Bytes → Option (List (Bytes × Bytes) × Bytes)
  | 0, _ => none
  | fuel + 1, bs => do
    let (line, r) ← readLine bs
    if line.isEmpty then some ([], r)
    else
      let kv ← readFieldLine line
      let (fields, rest) ← readFields fuel r
      some (kv :: fields, rest)

/-- The head a server reads off the front of the bytes, and the bytes after it. -/
def readHead (bs : Bytes) : Option (RequestHead × Bytes) := do
  let (line, r) ← readLine bs
  let (method, target, version) ← readRequestLine line
  let (fields, rest) ← readFields r.length r
  some (⟨method, target, version, fields⟩, rest)

theorem readLine_append {line : Bytes} (h : 13 ∉ line) (rest : Bytes) :
    readLine (line ++ 13 :: 10 :: rest) = some (line, rest) := by
  simp only [readLine, cutAt_append h]

theorem readRequestLine_wellFormed {line m t v : Bytes}
    (h : readRequestLine line = some (m, t, v)) :
    token m = true ∧ originForm t = true ∧ httpVersion v = true := by
  simp only [readRequestLine, Option.bind_eq_bind, Option.bind_eq_some, Prod.exists] at h
  obtain ⟨_, _, -, _, _, -, h⟩ := h
  split at h
  · next hc =>
    cases h
    simp only [Bool.and_eq_true] at hc
    exact ⟨hc.1.1, hc.1.2, hc.2⟩
  · cases h

theorem readFieldLine_wellFormed {line : Bytes} {kv : Bytes × Bytes}
    (h : readFieldLine line = some kv) : token kv.1 = true ∧ fieldValue kv.2 = true := by
  simp only [readFieldLine, Option.bind_eq_bind, Option.bind_eq_some, Prod.exists] at h
  obtain ⟨_, _, -, h⟩ := h
  split at h
  · next hc =>
    cases h
    simp only [Bool.and_eq_true] at hc
    exact ⟨hc.1, fieldValue_trimOws hc.2⟩
  · cases h

theorem readFields_wellFormed :
    ∀ {fuel : Nat} {bs : Bytes} {fields : List (Bytes × Bytes)} {rest : Bytes},
      readFields fuel bs = some (fields, rest) →
        ∀ kv ∈ fields, token kv.1 = true ∧ fieldValue kv.2 = true
  | 0, _, _, _, h => by cases h
  | fuel + 1, bs, fields, rest, h => by
    simp only [readFields, Option.bind_eq_bind, Option.bind_eq_some, Prod.exists] at h
    obtain ⟨line, r, -, h⟩ := h
    split at h
    · cases h
      simp
    · simp only [Option.bind_eq_some, Prod.exists, Option.some.injEq, Prod.mk.injEq] at h
      obtain ⟨k, v, hkv, fs, rest', hfs, rfl, rfl⟩ := h
      rintro kv' (_ | ⟨_, hmem⟩)
      · exact readFieldLine_wellFormed hkv
      · exact readFields_wellFormed hfs kv' hmem

/-- The reader accepts well-formed heads only. -/
theorem readHead_wellFormed {bs rest : Bytes} {h : RequestHead}
    (hr : readHead bs = some (h, rest)) : h.WellFormed := by
  simp only [readHead, Option.bind_eq_bind, Option.bind_eq_some, Prod.exists] at hr
  obtain ⟨line, r, -, m, t, v, hl, fs, rest', hfs, hr⟩ := hr
  cases hr
  obtain ⟨hm, ht, hv⟩ := readRequestLine_wellFormed hl
  exact ⟨hm, ht, hv, readFields_wellFormed hfs⟩

/-! ## The block reads back -/

def requestTarget (url : Url) : Bytes := url.path ++ (url.query.map (question :: ·)).getD []

def planHead (p : Http1PlanOutput) : RequestHead :=
  ⟨p.method.getD [], requestTarget p.url, p.versionString.getD [], p.headers⟩

theorem readRequestLine_line {m t v : Bytes} (hm : token m = true) (ht : originForm t = true)
    (hv : httpVersion v = true) : readRequestLine (m ++ sp :: (t ++ sp :: v)) = some (m, t, v) := by
  have hms : sp ∉ m := not_mem_of_all (by decide) (token_all hm)
  have hts : sp ∉ t := not_mem_of_all (by decide) (originForm_all ht)
  simp only [readRequestLine, cutAt_append hms, cutAt_append hts, Option.bind_eq_bind,
    Option.some_bind, hm, ht, hv, Bool.and_self, if_true]

theorem readFieldLine_line {kv : Bytes × Bytes} (hn : token kv.1 = true)
    (hv : fieldValue kv.2 = true) : readFieldLine (kv.1 ++ 58 :: sp :: kv.2) = some kv := by
  have hcolon : 58 ∉ kv.1 := not_mem_of_all (by decide) (token_all hn)
  have hraw : (sp :: kv.2).all fieldByte = true := by rw [List.all_cons, fieldValue_all hv]; rfl
  simp only [readFieldLine, cutAt_append hcolon, Option.bind_eq_bind, Option.some_bind, hn, hraw,
    Bool.and_self, if_true, trimOws_sp_cons hv]

theorem readFields_fieldLines {hs : List (Bytes × Bytes)}
    (hw : ∀ kv ∈ hs, token kv.1 = true ∧ fieldValue kv.2 = true) (rest : Bytes) :
    ∀ fuel, hs.length < fuel → readFields fuel (fieldLines hs ++ crlf ++ rest) = some (hs, rest) := by
  induction hs with
  | nil =>
    rintro (_ | fuel) hf
    · cases hf
    · simp [readFields, readLine, cutAt, crlf]
  | cons kv hs ih =>
    rintro (_ | fuel) hf
    · cases hf
    obtain ⟨hn, hv⟩ := hw kv (.head _)
    have hcr : 13 ∉ kv.1 ++ 58 :: sp :: kv.2 := by
      simp only [List.mem_append, List.mem_cons, not_or]
      exact ⟨not_mem_of_all (by decide) (token_all hn), by decide, by decide,
        not_mem_of_all (by decide) (fieldValue_all hv)⟩
    have hline : fieldLines (kv :: hs) ++ crlf ++ rest =
        (kv.1 ++ 58 :: sp :: kv.2) ++ 13 :: 10 :: (fieldLines hs ++ crlf ++ rest) := by
      simp [headerLine, colonSpace, crlf, sp]
    have hne : (kv.1 ++ 58 :: sp :: kv.2).isEmpty = false := by simp
    rw [hline]
    simp only [readFields, readLine_append hcr, Option.bind_eq_bind, Option.some_bind, hne,
      Bool.false_eq_true, if_false, readFieldLine_line hn hv,
      ih (fun kv h => hw kv (.tail _ h)) fuel (Nat.lt_of_succ_lt_succ hf)]

theorem length_le_fieldLines (hs : List (Bytes × Bytes)) : hs.length ≤ (fieldLines hs).length := by
  induction hs with
  | nil => simp
  | cons kv hs ih => simp [headerLine, colonSpace, crlf]; omega

/-- The block of a plan whose head is well formed, followed by any body, reads back as the plan's
method, target, version and headers, with the body left over. -/
theorem readHead_computeHeader {p : Http1PlanOutput} (hp : (planHead p).WellFormed) (body : Bytes) :
    readHead (computeHeader p ++ body) = some (planHead p, body) := by
  obtain ⟨hm, ht, hv, hf⟩ : token (p.method.getD []) = true ∧ originForm (requestTarget p.url) = true ∧
      httpVersion (p.versionString.getD []) = true ∧
      ∀ kv ∈ p.headers, token kv.1 = true ∧ fieldValue kv.2 = true :=
    ⟨hp.method, hp.target, hp.version, hp.fields⟩
  have hcr : 13 ∉ p.method.getD [] ++ sp :: (requestTarget p.url ++ sp :: p.versionString.getD []) := by
    simp only [List.mem_append, List.mem_cons, not_or]
    exact ⟨not_mem_of_all (by decide) (token_all hm), by decide,
      not_mem_of_all (by decide) (originForm_all ht), by decide, httpVersion_cr hv⟩
  have hblock : computeHeader p ++ body =
      (p.method.getD [] ++ sp :: (requestTarget p.url ++ sp :: p.versionString.getD [])) ++
        13 :: 10 :: (fieldLines p.headers ++ crlf ++ body) := by
    simp [computeHeader, foldl_putHeader, requestLine_eq, requestTarget, crlf]
  have hlen : p.headers.length < (fieldLines p.headers ++ crlf ++ body).length := by
    have := length_le_fieldLines p.headers
    simp only [List.length_append, crlf, List.length_cons, List.length_nil]
    omega
  rw [hblock, readHead, readLine_append hcr]
  simp only [Option.bind_eq_bind, Option.some_bind, readRequestLine_line hm ht hv,
    readFields_fieldLines hf body _ hlen]
  rfl

theorem readHead_computeHeader_postPlan :
    (planHead postPlan).WellFormed ∧
      readHead (computeHeader postPlan ++ postPlan.body) = some (planHead postPlan, postPlan.body) :=
  have hp : (planHead postPlan).WellFormed := ⟨by decide, by decide, by decide, by decide⟩
  ⟨hp, readHead_computeHeader hp postPlan.body⟩

/-- The block for `/` with neither method nor version has an empty method and no version. -/
example : readHead (computeHeader rootPlan) = none := by decide

/-- A bare LF in a header value is no line end and no field byte. -/
example : readHead (computeHeader { postPlan with headers := [([72], [104, 10, 49])] }) = none := by
  decide

end Apivuln.Http1
