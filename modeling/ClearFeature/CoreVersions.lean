import ClearFeature.ArtifactVerifier
import ClearFeature.Lib.Padded
import ClearFeature.Lib.Separated
import Mathlib.Data.List.TakeWhile
import Mathlib.Algebra.GroupWithZero.Nat

/-!
# Core-version requirements (`core_version_satisfies`)

The grammar of `requires_core` as a relation between texts and clauses, the
order of versions as an order on sequences of numbers, and where the loop that
checks and decides one clause after the other differs from the two.
-/

namespace ClearFeature

open Padded

/-! ## Splitting and stripping -/

theorem splitOn_eq (sep : Char) : ∀ cs : List Char, splitOn sep cs = cs.splitOn sep
  | [] => (List.splitOn_nil sep).symm
  | c :: cs => by
    rw [splitOn, splitOn_eq sep cs, List.splitOn_cons_eq_if_modifyHead]
    cases h : cs.splitOn sep with
    | nil => exact absurd h (List.splitOn_ne_nil sep cs)
    | cons part parts => simp only [List.modifyHead_cons, beq_iff_eq]

theorem splitOn_intercalate {sep : Char} {parts : List (List Char)} (hparts : ∀ part ∈ parts, sep ∉ part)
    (hne : parts ≠ []) : splitOn sep ([sep].intercalate parts) = parts := by
  rw [splitOn_eq, List.splitOn_intercalate sep hparts hne]

theorem intercalate_splitOn (sep : Char) (cs : List Char) : [sep].intercalate (splitOn sep cs) = cs := by
  rw [splitOn_eq, List.intercalate_splitOn]

theorem splitOn_ne_nil (sep : Char) (cs : List Char) : splitOn sep cs ≠ [] := by
  rw [splitOn_eq]
  exact List.splitOn_ne_nil sep cs

theorem not_mem_splitOn {sep : Char} {cs part : List Char} (h : part ∈ splitOn sep cs) : sep ∉ part := by
  rw [splitOn_eq] at h
  exact Separated.not_mem_splitOn h

def AllSpace (cs : List Char) : Prop := ∀ c ∈ cs, isSpace c = true

theorem dropWhile_space {s cs : List Char} (hs : AllSpace s) (hcs : ∀ c, cs.head? = some c → isSpace c = false) :
    (s ++ cs).dropWhile isSpace = cs := by
  rw [List.dropWhile_append_of_pos hs]
  cases cs with
  | nil => rfl
  | cons c cs => rw [List.dropWhile_cons_of_neg (by rw [hcs c rfl]; decide)]

structure Trimmed (cs : List Char) : Prop where
  head : ∀ c, cs.head? = some c → isSpace c = false
  last : ∀ c, cs.getLast? = some c → isSpace c = false

theorem dropWhile_eq_strip (raw : List Char) :
    raw.dropWhile isSpace = strip raw ++ ((raw.dropWhile isSpace).reverse.takeWhile isSpace).reverse := by
  rw [strip, ← List.reverse_append, List.takeWhile_append_dropWhile, List.reverse_reverse]

theorem strip_split (raw : List Char) : ∃ s₁ s₂, AllSpace s₁ ∧ AllSpace s₂ ∧ raw = s₁ ++ strip raw ++ s₂ := by
  refine ⟨raw.takeWhile isSpace, ((raw.dropWhile isSpace).reverse.takeWhile isSpace).reverse, ?_, ?_, ?_⟩
  · exact fun c hc => List.mem_takeWhile_imp hc
  · exact fun c hc => List.mem_takeWhile_imp (List.mem_reverse.mp hc)
  · rw [List.append_assoc, ← dropWhile_eq_strip, List.takeWhile_append_dropWhile]

theorem strip_eq {s₁ body s₂ : List Char} (h₁ : AllSpace s₁) (h₂ : AllSpace s₂) (hb : Trimmed body) :
    strip (s₁ ++ body ++ s₂) = body := by
  have hlast : ∀ c, body.reverse.head? = some c → isSpace c = false := fun c hc =>
    hb.last c (by rw [← hc, List.head?_reverse])
  have hback : AllSpace s₂.reverse := fun c hc => h₂ c (List.mem_reverse.mp hc)
  have hfront : (s₁ ++ body ++ s₂).dropWhile isSpace = body ++ s₂ ∨ body = [] := by
    cases hbody : body with
    | nil => exact .inr rfl
    | cons c cs =>
      refine .inl ?_
      rw [List.append_assoc]
      exact dropWhile_space h₁ fun d hd => hb.head d (hbody ▸ hd)
  rcases hfront with hfront | rfl
  · rw [strip, hfront, List.reverse_append, dropWhile_space hback hlast, List.reverse_reverse]
  · have hall : AllSpace (s₁ ++ [] ++ s₂) := by
      intro c hc
      rw [List.append_nil] at hc
      exact (List.mem_append.mp hc).elim (h₁ c) (h₂ c)
    rw [strip, List.dropWhile_eq_nil_iff.mpr hall]
    rfl

/-! ## The grammar -/

structure Release where
  parts : List (List Char)
  nonempty : parts ≠ []
  digits : ∀ part ∈ parts, part ≠ [] ∧ ∀ c ∈ part, isDecimal c = true

namespace Release

def text (r : Release) : List Char := ['.'].intercalate r.parts

def key (r : Release) : List Nat := r.parts.map releaseNumber

/-- The version in the order of versions. -/
def order (r : Release) : Lex (ℕ → ℕ) := padded r.key

def Short (r : Release) : Prop := ∀ part ∈ r.parts, part.length ≤ maxStrDigits

/-- The text is the release, with white space around it. -/
def Reads (r : Release) (raw : List Char) : Prop := ∃ s₁ s₂, AllSpace s₁ ∧ AllSpace s₂ ∧ raw = s₁ ++ r.text ++ s₂

end Release

inductive Operator where
  | eq
  | ge
  | le
  | gt
  | lt

namespace Operator

def text : Operator → List Char
  | eq => ['=', '=']
  | ge => ['>', '=']
  | le => ['<', '=']
  | gt => ['>']
  | lt => ['<']

/-- What the operator asks of the sign of a comparison. -/
def test : Operator → Int → Bool
  | eq => fun c => c == 0
  | ge => fun c => 0 ≤ c
  | le => fun c => c ≤ 0
  | gt => fun c => 0 < c
  | lt => fun c => c < 0

def Holds {α : Type} [LinearOrder α] (op : Operator) (a b : α) : Prop :=
  match op with
  | eq => a = b
  | ge => b ≤ a
  | le => a ≤ b
  | gt => b < a
  | lt => a < b

end Operator

structure Clause where
  op : Operator
  release : Release

namespace Clause

/-- The text is the operator and the release, with white space around each. -/
def Reads (c : Clause) (raw : List Char) : Prop :=
  ∃ s₁ s₂ s₃, AllSpace s₁ ∧ AllSpace s₂ ∧ AllSpace s₃ ∧ raw = s₁ ++ (c.op.text ++ s₂ ++ c.release.text) ++ s₃

def Holds (c : Clause) (installed : Release) : Prop := c.op.Holds installed.order c.release.order

end Clause

/-! ## Texts of releases -/

theorem isDecimal_zero {c : Char} (h : isDecimal c = true) : ∃ first ∈ decimalZeros, ∃ d < 10, c.toNat = first + d := by
  rw [isDecimal, decimalValue, Option.isSome_map, Option.isSome_iff_exists] at h
  obtain ⟨first, hfind⟩ := h
  have hp := List.find?_some hfind
  simp only [Bool.and_eq_true, decide_eq_true_eq] at hp
  exact ⟨first, List.mem_of_find?_eq_some hfind, c.toNat - first, by omega, by omega⟩

theorem decimal_spaces : ∀ first ∈ decimalZeros, ∀ d < 10, isSpace (Char.ofNat (first + d)) = false := by decide +kernel

theorem isSpace_of_isDecimal {c : Char} (h : isDecimal c = true) : isSpace c = false := by
  obtain ⟨first, hm, d, hd, hc⟩ := isDecimal_zero h
  have hspace := decimal_spaces first hm d hd
  rw [← hc, Char.ofNat_toNat] at hspace
  exact hspace

namespace Release

theorem splitOn_text (r : Release) : splitOn '.' r.text = r.parts :=
  splitOn_intercalate (fun part hp hm => absurd ((r.digits part hp).2 _ hm) (by decide +kernel)) r.nonempty

theorem mem_text {r : Release} {c : Char} (h : c ∈ r.text) : c = '.' ∨ isDecimal c = true := by
  refine (Separated.mem_intercalate h).imp id ?_
  rintro ⟨part, hp, hc⟩
  exact (r.digits part hp).2 c hc

theorem text_noSpace {r : Release} {c : Char} (h : c ∈ r.text) : isSpace c = false := by
  rcases mem_text h with rfl | h
  · decide
  · exact isSpace_of_isDecimal h

theorem text_ne_nil (r : Release) : r.text ≠ [] := by
  intro h
  have hsplit := r.splitOn_text
  rw [h] at hsplit
  have hdigits := r.digits [] (hsplit ▸ List.mem_singleton.mpr rfl)
  exact hdigits.1 rfl

theorem isRelease_text (r : Release) : isRelease r.text = true := by
  rw [isRelease, r.splitOn_text, List.all_eq_true]
  intro part hp
  obtain ⟨hne, hdigits⟩ := r.digits part hp
  exact decide_eq_true ⟨hne, List.all_eq_true.mpr hdigits⟩

end Release

theorem exists_release {cs : List Char} (h : isRelease cs = true) : ∃ r : Release, r.text = cs := by
  rw [isRelease, List.all_eq_true] at h
  refine ⟨⟨splitOn '.' cs, splitOn_ne_nil '.' cs, fun part hp => ?_⟩, intercalate_splitOn '.' cs⟩
  obtain ⟨hne, hdigits⟩ := of_decide_eq_true (h part hp)
  exact ⟨hne, List.all_eq_true.mp hdigits⟩

/-! ## Reading the texts -/

theorem Release.Reads.stripped {r : Release} {raw : List Char} (h : r.Reads raw) : strip raw = r.text := by
  obtain ⟨s₁, s₂, h₁, h₂, rfl⟩ := h
  refine strip_eq h₁ h₂ ⟨fun c hc => Release.text_noSpace (List.mem_of_head? hc), fun c hc => ?_⟩
  exact Release.text_noSpace (List.mem_of_getLast? hc)

theorem exists_reads {raw : List Char} (h : isRelease (strip raw) = true) : ∃ r : Release, r.Reads raw := by
  obtain ⟨r, hr⟩ := exists_release h
  obtain ⟨s₁, s₂, h₁, h₂, heq⟩ := strip_split raw
  exact ⟨r, s₁, s₂, h₁, h₂, hr ▸ heq⟩

theorem compareOps_eq : compareOps = [Operator.eq, .ge, .le, .gt, .lt].map fun op => (op.text, op.test) := rfl

theorem Operator.text_head (op : Operator) : ∃ c cs, op.text = c :: cs ∧ isSpace c = false := by
  cases op <;> exact ⟨_, _, rfl, by decide⟩

theorem Clause.trimmed (c : Clause) (s : List Char) : Trimmed (c.op.text ++ s ++ c.release.text) where
  head d hd := by
    obtain ⟨x, xs, hop, hx⟩ := c.op.text_head
    rw [hop, List.cons_append, List.cons_append, List.head?_cons] at hd
    exact Option.some.inj hd ▸ hx
  last d hd := by
    rw [List.getLast?_append_of_ne_nil _ c.release.text_ne_nil] at hd
    exact Release.text_noSpace (List.mem_of_getLast? hd)

theorem Clause.Reads.stripped {c : Clause} {raw : List Char} (h : c.Reads raw) :
    ∃ s, AllSpace s ∧ strip raw = c.op.text ++ (s ++ c.release.text) := by
  obtain ⟨s₁, s₂, s₃, h₁, h₂, h₃, rfl⟩ := h
  refine ⟨s₂, h₂, ?_⟩
  rw [strip_eq h₁ h₃ (c.trimmed s₂), List.append_assoc]

/-- What follows an operator does not make it a longer one. -/
theorem Clause.rest_head {s : List Char} (hs : AllSpace s) (r : Release) : ∃ c cs, s ++ r.text = c :: cs ∧ c ≠ '=' := by
  have hmem : ∀ c ∈ s ++ r.text, c ≠ '=' := by
    rintro c hc rfl
    rcases List.mem_append.mp hc with hc | hc
    · exact absurd (hs _ hc) (by decide)
    · rcases Release.mem_text hc with hc | hc
      · exact absurd hc (by decide)
      · exact absurd hc (by decide +kernel)
  cases h : s ++ r.text with
  | nil => exact absurd (List.append_eq_nil_iff.mp h).2 r.text_ne_nil
  | cons c cs => exact ⟨c, cs, rfl, hmem c (h ▸ List.mem_cons_self)⟩

theorem parseClause_reads {c : Clause} {raw : List Char} (h : c.Reads raw) :
    parseClause raw = some (c.op.test, c.release.text) := by
  obtain ⟨s, hs, hstrip⟩ := h.stripped
  obtain ⟨d, ds, hrest, hd⟩ := Clause.rest_head hs c.release
  have hdrop : (d :: ds).dropWhile isSpace = c.release.text := by
    rw [← hrest]
    exact dropWhile_space hs fun x hx => Release.text_noSpace (List.mem_of_head? hx)
  have hrelease := c.release.isRelease_text
  have hd' : '=' ≠ d := fun e => hd e.symm
  rw [parseClause, hstrip, hrest]
  cases hop : c.op <;> simp [compareOps, Operator.text, Operator.test, hdrop, hrelease, hd']

theorem parseClause_some {raw : List Char} {p : (Int → Bool) × List Char} (h : parseClause raw = some p) :
    ∃ c : Clause, c.Reads raw ∧ p = (c.op.test, c.release.text) := by
  rw [parseClause, compareOps_eq] at h
  obtain ⟨entry, hentry, hp⟩ := List.exists_of_findSome?_eq_some h
  obtain ⟨op, -, rfl⟩ := List.mem_map.mp hentry
  dsimp only at hp
  split at hp
  · rename_i hc
    obtain ⟨hpre, hrelease⟩ := Bool.and_eq_true_iff.mp hc
    obtain ⟨rest, hrest⟩ := List.isPrefixOf_iff_prefix.mp hpre
    rw [← hrest, List.drop_left] at hp hrelease
    obtain ⟨r, hr⟩ := exists_release hrelease
    obtain ⟨s₁, s₂, h₁, h₂, hraw⟩ := strip_split raw
    refine ⟨⟨op, r⟩, ⟨s₁, rest.takeWhile isSpace, s₂, h₁, fun x hx => List.mem_takeWhile_imp hx, h₂, ?_⟩, ?_⟩
    · dsimp only
      rw [List.append_assoc op.text, hr, List.takeWhile_append_dropWhile, hrest]
      exact hraw
    · rw [hr]
      exact (Option.some.inj hp).symm
  · cases hp

/-! ## Numbers and their order -/

theorem componentNumbers_short : ∀ {parts : List (List Char)}, (∀ part ∈ parts, part.length ≤ maxStrDigits) →
    componentNumbers parts = .ok (parts.map releaseNumber)
  | [], _ => rfl
  | part :: parts, h => by
    have hpart : componentNumber part = .ok (releaseNumber part) :=
      bind_eq_ok.mpr ⟨(), raiseIf_eq_ok.mpr (not_lt.mpr (h part List.mem_cons_self)), rfl⟩
    rw [componentNumbers, hpart, ok_bind, componentNumbers_short fun p hp => h p (List.mem_cons_of_mem _ hp)]
    rfl

theorem componentNumbers_ok : ∀ {parts : List (List Char)} {key : List Nat}, componentNumbers parts = .ok key →
    ∀ part ∈ parts, part.length ≤ maxStrDigits
  | [], _, _, part, hp => nomatch hp
  | first :: parts, key, h, part, hp => by
    simp only [componentNumbers, componentNumber, bind_eq_ok, raiseIf_eq_ok] at h
    obtain ⟨n, ⟨-, hle, -⟩, ns, hns, -⟩ := h
    rcases List.mem_cons.mp hp with rfl | hp
    · exact not_lt.mp hle
    · exact componentNumbers_ok hns part hp

namespace Release

theorem versionKey_short {r : Release} (h : r.Short) : versionKey r.text = .ok r.key := by
  rw [versionKey, r.splitOn_text]
  exact componentNumbers_short h

theorem versionKey_ok {r : Release} {key : List Nat} (h : versionKey r.text = .ok key) : r.Short ∧ key = r.key := by
  have hshort : r.Short := by
    rw [versionKey, r.splitOn_text] at h
    exact componentNumbers_ok h
  rw [versionKey_short hshort] at h
  exact ⟨hshort, (Except.ok.inj h).symm⟩

end Release

/-- The comparison of two keys is the sign of their order. -/
theorem compareVersions_sign (left right : List Nat) :
    (padded left < padded right ∧ compareVersions left right = -1) ∨
      (padded left = padded right ∧ compareVersions left right = 0) ∨
      (padded right < padded left ∧ compareVersions left right = 1) := by
  have hleft : left.length ≤ max left.length right.length := Nat.le_max_left _ _
  have hright : right.length ≤ max left.length right.length := Nat.le_max_right _ _
  have hgt := fill_lt_iff hright hleft
  have hlt := fill_lt_iff hleft hright
  rw [fill, fill] at hgt hlt
  unfold compareVersions
  dsimp only
  rcases lt_trichotomy (padded left) (padded right) with h | h | h
  · refine .inl ⟨h, ?_⟩
    rw [if_neg (fun h' => h.not_gt (hgt.mp h')), if_pos (hlt.mpr h)]
    rfl
  · refine .inr (.inl ⟨h, ?_⟩)
    rw [if_neg (fun h' => (hgt.mp h').ne h.symm), if_neg (fun h' => (hlt.mp h').ne h)]
    rfl
  · refine .inr (.inr ⟨h, ?_⟩)
    rw [if_pos (hgt.mpr h), if_neg (fun h' => h.not_gt (hlt.mp h'))]
    rfl

section
variable {α : Type} [LinearOrder α] {a b : α} (op : Operator)

theorem Operator.test_lt (h : a < b) : op.test (-1) = true ↔ op.Holds a b := by
  cases op <;> simp [Operator.test, Operator.Holds, h, h.ne, h.le]

theorem Operator.test_eq (h : a = b) : op.test 0 = true ↔ op.Holds a b := by
  cases op <;> simp [Operator.test, Operator.Holds, h]

theorem Operator.test_gt (h : b < a) : op.test 1 = true ↔ op.Holds a b := by
  cases op <;> simp [Operator.test, Operator.Holds, h, h.ne', h.le]

end

theorem Clause.test_iff (c : Clause) (installed : Release) :
    c.op.test (compareVersions installed.key c.release.key) = true ↔ c.Holds installed := by
  rcases compareVersions_sign installed.key c.release.key with ⟨h, hc⟩ | ⟨h, hc⟩ | ⟨h, hc⟩
  · rw [hc]
    exact c.op.test_lt h
  · rw [hc]
    exact c.op.test_eq h
  · rw [hc]
    exact c.op.test_gt h

/-! ## The loop -/

def Passes (installed : Release) (raw : List Char) : Prop := ∃ c : Clause, c.Reads raw ∧ c.release.Short ∧ c.Holds installed

def Fails (installed : Release) (raw : List Char) : Prop := ∃ c : Clause, c.Reads raw ∧ c.release.Short ∧ ¬ c.Holds installed

/-- A clause fails, and all before it pass. -/
def FailsFirst (installed : Release) (clauses : List (List Char)) : Prop :=
  ∃ before raw later, clauses = before ++ raw :: later ∧ (∀ b ∈ before, Passes installed b) ∧ Fails installed raw

theorem Clause.Reads.not_blank {c : Clause} {raw : List Char} (h : c.Reads raw) : strip raw ≠ [] := by
  obtain ⟨s, -, hstrip⟩ := h.stripped
  obtain ⟨d, ds, hop, -⟩ := c.op.text_head
  rw [hstrip, hop, List.cons_append]
  exact List.cons_ne_nil _ _

section
variable {installed : Release} {raw : List Char} {clauses : List (List Char)}

theorem clausesSatisfied_passes (h : Passes installed raw) :
    clausesSatisfied installed.key (raw :: clauses) = clausesSatisfied installed.key clauses := by
  obtain ⟨c, hreads, hshort, hholds⟩ := h
  rw [clausesSatisfied, if_neg hreads.not_blank, parseClause_reads hreads]
  dsimp only
  rw [Release.versionKey_short hshort, ok_bind, if_pos ((c.test_iff installed).mpr hholds)]

theorem clausesSatisfied_fails (h : Fails installed raw) : clausesSatisfied installed.key (raw :: clauses) = .ok false := by
  obtain ⟨c, hreads, hshort, hholds⟩ := h
  rw [clausesSatisfied, if_neg hreads.not_blank, parseClause_reads hreads]
  dsimp only
  rw [Release.versionKey_short hshort, ok_bind, if_neg fun ht => hholds ((c.test_iff installed).mp ht)]

/-- A clause that the loop gets past or ends at without raising. -/
theorem clausesSatisfied_ok {b : Bool} (h : clausesSatisfied installed.key (raw :: clauses) = .ok b) :
    Passes installed raw ∨ Fails installed raw := by
  rw [clausesSatisfied] at h
  by_cases hblank : strip raw = []
  · rw [if_pos hblank] at h
    cases h
  rw [if_neg hblank] at h
  cases hp : parseClause raw with
  | none =>
    rw [hp] at h
    cases h
  | some p =>
    obtain ⟨c, hreads, rfl⟩ := parseClause_some hp
    rw [hp] at h
    dsimp only at h
    obtain ⟨key, hkey, -⟩ := bind_eq_ok.mp h
    obtain ⟨hshort, -⟩ := Release.versionKey_ok hkey
    by_cases hholds : c.Holds installed
    · exact .inl ⟨c, hreads, hshort, hholds⟩
    · exact .inr ⟨c, hreads, hshort, hholds⟩

end

section
variable {installed : Release}

theorem clausesSatisfied_true : ∀ {clauses : List (List Char)},
    clausesSatisfied installed.key clauses = .ok true ↔ ∀ raw ∈ clauses, Passes installed raw
  | [] => ⟨fun _ _ hm => (nomatch hm), fun _ => rfl⟩
  | raw :: clauses => by
    constructor
    · intro h
      rcases clausesSatisfied_ok h with hp | hf
      · rw [clausesSatisfied_passes hp] at h
        exact List.forall_mem_cons.mpr ⟨hp, clausesSatisfied_true.mp h⟩
      · rw [clausesSatisfied_fails hf] at h
        cases h
    · intro h
      obtain ⟨hp, hall⟩ := List.forall_mem_cons.mp h
      rw [clausesSatisfied_passes hp]
      exact clausesSatisfied_true.mpr hall

theorem clausesSatisfied_false : ∀ {clauses : List (List Char)},
    clausesSatisfied installed.key clauses = .ok false ↔ FailsFirst installed clauses
  | [] => by
    constructor
    · intro h
      cases h
    · rintro ⟨before, raw, later, h, -⟩
      exact absurd h.symm (List.append_ne_nil_of_right_ne_nil before (List.cons_ne_nil raw later))
  | raw :: clauses => by
    constructor
    · intro h
      rcases clausesSatisfied_ok h with hp | hf
      · rw [clausesSatisfied_passes hp] at h
        obtain ⟨before, raw', later, rfl, hbefore, hfails⟩ := clausesSatisfied_false.mp h
        exact ⟨raw :: before, raw', later, rfl, List.forall_mem_cons.mpr ⟨hp, hbefore⟩, hfails⟩
      · exact ⟨[], raw, clauses, rfl, fun _ hm => (nomatch hm), hf⟩
    · rintro ⟨before, raw', later, heq, hbefore, hfails⟩
      cases before with
      | nil =>
        obtain ⟨rfl, rfl⟩ := List.cons.inj heq
        exact clausesSatisfied_fails hfails
      | cons b before =>
        obtain ⟨rfl, rfl⟩ := List.cons.inj heq
        obtain ⟨hp, hbefore⟩ := List.forall_mem_cons.mp hbefore
        rw [clausesSatisfied_passes hp]
        exact clausesSatisfied_false.mpr ⟨before, raw', later, rfl, hbefore, hfails⟩

end

/-! ## The whole requirement -/

def clausesOf (requires : String) : List (List Char) := splitOn ',' requires.toList

theorem not_all_blank {r : Release} {clauses : List (List Char)} (hne : clauses ≠ []) {b : Bool}
    (h : clausesSatisfied r.key clauses = .ok b) : ¬ (clauses.all fun clause => strip clause = []) = true := by
  cases clauses with
  | nil => exact absurd rfl hne
  | cons raw clauses =>
    intro hall
    have hblank : strip raw = [] := of_decide_eq_true (List.all_eq_true.mp hall raw List.mem_cons_self)
    rcases clausesSatisfied_ok h with ⟨c, hreads, -⟩ | ⟨c, hreads, -⟩
    · exact hreads.not_blank hblank
    · exact hreads.not_blank hblank

theorem satisfies_ok {installed requires : String} {b : Bool} : coreVersionSatisfies installed requires = .ok b ↔
    ∃ r : Release, r.Reads installed.toList ∧ r.Short ∧ clausesSatisfied r.key (clausesOf requires) = .ok b := by
  simp only [coreVersionSatisfies, bind_eq_ok, raiseIf_eq_ok]
  constructor
  · rintro ⟨-, hrelease, key, hkey, -, -, h⟩
    obtain ⟨r, hr⟩ := exists_reads (Bool.eq_true_of_not_eq_false hrelease)
    rw [hr.stripped] at hkey
    obtain ⟨hshort, rfl⟩ := Release.versionKey_ok hkey
    exact ⟨r, hr, hshort, h⟩
  · rintro ⟨r, hr, hshort, h⟩
    have hrelease := r.isRelease_text
    rw [← hr.stripped] at hrelease
    refine ⟨(), by rw [hrelease]; decide, r.key, ?_, (), not_all_blank (splitOn_ne_nil _ _) h, h⟩
    rw [hr.stripped, Release.versionKey_short hshort]

theorem Release.Reads.parts_eq {r r' : Release} {raw : List Char} (h : r.Reads raw) (h' : r'.Reads raw) : r.parts = r'.parts := by
  rw [← r.splitOn_text, ← r'.splitOn_text, ← h.stripped, ← h'.stripped]

/-- Two readings of a clause say the same. -/
theorem Clause.Reads.same {c c' : Clause} {raw : List Char} (h : c.Reads raw) (h' : c'.Reads raw) (installed : Release) :
    c.release.parts = c'.release.parts ∧ (c.Holds installed ↔ c'.Holds installed) := by
  have heq := (parseClause_reads h).symm.trans (parseClause_reads h')
  obtain ⟨htest, htext⟩ := Prod.mk.inj (Option.some.inj heq)
  have hparts : c.release.parts = c'.release.parts := by
    rw [← c.release.splitOn_text, ← c'.release.splitOn_text, htext]
  have hkey : c.release.key = c'.release.key := congrArg (List.map releaseNumber) hparts
  refine ⟨hparts, ?_⟩
  rw [← c.test_iff, ← c'.test_iff, htest, hkey]

def InGrammar (installed requires : String) : Prop :=
  (∃ r : Release, r.Reads installed.toList) ∧ ∀ raw ∈ clausesOf requires, ∃ c : Clause, c.Reads raw

/-- An error is raised outside the grammar only; inside it all clauses together are decided, in whatever order. -/
structure DecidedExactly (installed requires : String) : Prop where
  raises : (∃ e, coreVersionSatisfies installed requires = .error e) ↔ ¬ InGrammar installed requires
  conjunction : ∀ r : Release, r.Reads installed.toList → (∀ raw ∈ clausesOf requires, ∃ c : Clause, c.Reads raw) →
    ∃ b, coreVersionSatisfies installed requires = .ok b ∧
      (b = true ↔ ∀ raw ∈ clausesOf requires, ∀ c : Clause, c.Reads raw → c.Holds r)
  order : InGrammar installed requires → ∀ clauses, clauses.Perm (clausesOf requires) →
    coreVersionSatisfies installed (String.ofList ([','].intercalate clauses)) = coreVersionSatisfies installed requires

def AllShort (installed requires : String) : Prop :=
  (∀ r : Release, r.Reads installed.toList → r.Short) ∧
    ∀ raw ∈ clausesOf requires, ∀ c : Clause, c.Reads raw → c.release.Short

/-- A clause is false, and it and what stands before it are well formed. -/
def EndsEarly (installed requires : String) : Prop :=
  ∃ r : Release, r.Reads installed.toList ∧ r.Short ∧ FailsFirst r (clausesOf requires)

theorem satisfies_true {installed requires : String} : coreVersionSatisfies installed requires = .ok true ↔
    ∃ r : Release, r.Reads installed.toList ∧ r.Short ∧ ∀ raw ∈ clausesOf requires, Passes r raw := by
  simp only [satisfies_ok, clausesSatisfied_true]

theorem satisfies_false {installed requires : String} :
    coreVersionSatisfies installed requires = .ok false ↔ EndsEarly installed requires := by
  simp only [satisfies_ok, clausesSatisfied_false, EndsEarly]

theorem satisfies_readable {installed requires : String} {r : Release} (hr : r.Reads installed.toList) (hshort : r.Short)
    (hall : ∀ raw ∈ clausesOf requires, ∃ c : Clause, c.Reads raw ∧ c.release.Short) :
    ∃ b, coreVersionSatisfies installed requires = .ok b ∧ (b = true ↔ ∀ raw ∈ clausesOf requires, Passes r raw) := by
  have hstep : ∀ clauses : List (List Char), (∀ raw ∈ clauses, ∃ c : Clause, c.Reads raw ∧ c.release.Short) →
      ∃ b, clausesSatisfied r.key clauses = .ok b := by
    intro clauses
    induction clauses with
    | nil => exact fun _ => ⟨true, rfl⟩
    | cons raw clauses ih =>
      intro hall
      obtain ⟨⟨c, hreads, hc⟩, hrest⟩ := List.forall_mem_cons.mp hall
      by_cases hholds : c.Holds r
      · rw [clausesSatisfied_passes ⟨c, hreads, hc, hholds⟩]
        exact ih hrest
      · exact ⟨false, clausesSatisfied_fails ⟨c, hreads, hc, hholds⟩⟩
  obtain ⟨b, hb⟩ := hstep _ hall
  refine ⟨b, satisfies_ok.mpr ⟨r, hr, hshort, hb⟩, ?_⟩
  rw [← clausesSatisfied_true, hb]
  exact ⟨fun h => h ▸ rfl, fun h => Except.ok.inj h⟩

theorem Release.Short.of_parts {r r' : Release} (h : r.Short) (hparts : r.parts = r'.parts) : r'.Short :=
  fun part hp => h part (hparts ▸ hp)

theorem passes_iff {installed : Release} {raw : List Char} (hall : ∃ c : Clause, c.Reads raw ∧ c.release.Short) :
    Passes installed raw ↔ ∀ c : Clause, c.Reads raw → c.Holds installed := by
  constructor
  · rintro ⟨c, hreads, -, hholds⟩ c' hreads'
    exact (hreads.same hreads' installed).2.mp hholds
  · intro h
    obtain ⟨c, hreads, hshort⟩ := hall
    exact ⟨c, hreads, hshort, h c hreads⟩

theorem clausesOf_join {requires : String} {clauses : List (List Char)} (h : clauses.Perm (clausesOf requires)) :
    clausesOf (String.ofList ([','].intercalate clauses)) = clauses := by
  rw [clausesOf, String.toList_ofList]
  refine splitOn_intercalate (fun part hp => not_mem_splitOn (h.mem_iff.mp hp)) fun hnil => ?_
  rw [hnil] at h
  exact splitOn_ne_nil _ _ h.nil_eq.symm

section
variable {installed requires : String}

theorem InGrammar.readable (hg : InGrammar installed requires) (hs : AllShort installed requires) :
    ∀ raw ∈ clausesOf requires, ∃ c : Clause, c.Reads raw ∧ c.release.Short := by
  intro raw hm
  obtain ⟨c, hreads⟩ := hg.2 raw hm
  exact ⟨c, hreads, hs.2 raw hm c hreads⟩

theorem DecidedExactly.allShort (h : DecidedExactly installed requires) (hg : InGrammar installed requires) :
    AllShort installed requires := by
  obtain ⟨r, hr⟩ := hg.1
  obtain ⟨b, hb, -⟩ := h.conjunction r hr hg.2
  constructor
  · intro r₁ hr₁
    obtain ⟨r₂, hr₂, hshort, -⟩ := satisfies_ok.mp hb
    exact hshort.of_parts (hr₂.parts_eq hr₁)
  · intro raw hm c hreads
    -- the clause in front of all others is the first one that is converted
    have hperm : (raw :: (clausesOf requires).erase raw).Perm (clausesOf requires) := (List.perm_cons_erase hm).symm
    have hfirst := (h.order hg _ hperm).trans hb
    obtain ⟨r', -, -, hloop⟩ := satisfies_ok.mp hfirst
    rw [clausesOf_join hperm] at hloop
    rcases clausesSatisfied_ok hloop with ⟨c', hreads', hshort, -⟩ | ⟨c', hreads', hshort, -⟩
    · exact hshort.of_parts (hreads'.same hreads r').1
    · exact hshort.of_parts (hreads'.same hreads r').1

theorem InGrammar.decided (hg : InGrammar installed requires) (hs : AllShort installed requires) :
    DecidedExactly installed requires := by
  have hreadable := hg.readable hs
  constructor
  · obtain ⟨r, hr⟩ := hg.1
    obtain ⟨b, hb, -⟩ := satisfies_readable hr (hs.1 r hr) hreadable
    refine ⟨fun ⟨e, he⟩ => ?_, fun hn => absurd hg hn⟩
    rw [hb] at he
    cases he
  · intro r hr _
    obtain ⟨b, hb, hiff⟩ := satisfies_readable hr (hs.1 r hr) hreadable
    refine ⟨b, hb, hiff.trans ?_⟩
    exact forall₂_congr fun raw hm => passes_iff (hreadable raw hm)
  · intro _ clauses hperm
    obtain ⟨r, hr⟩ := hg.1
    obtain ⟨b, hb, hiff⟩ := satisfies_readable hr (hs.1 r hr) hreadable
    have hjoin := clausesOf_join hperm
    have hreadable' : ∀ raw ∈ clausesOf (String.ofList ([','].intercalate clauses)),
        ∃ c : Clause, c.Reads raw ∧ c.release.Short := by
      intro raw hm
      rw [hjoin] at hm
      exact hreadable raw (hperm.mem_iff.mp hm)
    obtain ⟨b', hb', hiff'⟩ := satisfies_readable hr (hs.1 r hr) hreadable'
    have hsame : b' = true ↔ b = true := by
      rw [hiff', hiff, hjoin]
      exact forall_congr' fun raw => by rw [hperm.mem_iff]
    rw [hb, hb', Bool.eq_iff_iff.mpr hsame]

/-- For every installed version and every requirement: in the grammar, the answer is exact when `int` converts every
component; outside it, when the clauses do not end early at a false one. -/
theorem decided_exactly_iff (installed requires : String) : DecidedExactly installed requires ↔
    (InGrammar installed requires → AllShort installed requires) ∧
      (¬ InGrammar installed requires → ¬ EndsEarly installed requires) := by
  constructor
  · intro h
    refine ⟨h.allShort, fun hg hearly => ?_⟩
    obtain ⟨e, he⟩ := h.raises.mpr hg
    rw [satisfies_false.mpr hearly] at he
    cases he
  · rintro ⟨hshort, hearly⟩
    by_cases hg : InGrammar installed requires
    · exact hg.decided (hshort hg)
    · refine ⟨⟨fun _ => hg, fun _ => ?_⟩, fun r hr hall => absurd ⟨⟨r, hr⟩, hall⟩ hg, fun h => absurd h hg⟩
      cases hv : coreVersionSatisfies installed requires with
      | error e => exact ⟨e, rfl⟩
      | ok b =>
        cases b with
        | false => exact absurd (satisfies_false.mp hv) (hearly hg)
        | true =>
          obtain ⟨r, hr, -, hall⟩ := satisfies_true.mp hv
          exact absurd ⟨⟨r, hr⟩, fun raw hm => (hall raw hm).imp fun c hc => hc.1⟩ hg

/-- A stray comma after a false clause is not reported. -/
theorem stray_comma_unreported : ¬ DecidedExactly "0.0.9" ">=0.1," := by
  intro h
  have hout : ¬ InGrammar "0.0.9" ">=0.1," := by
    rintro ⟨-, hall⟩
    have hm : [] ∈ clausesOf ">=0.1," := by decide
    obtain ⟨c, hreads⟩ := hall [] hm
    exact hreads.not_blank rfl
  obtain ⟨e, he⟩ := h.raises.mpr hout
  have hfalse : (coreVersionSatisfies "0.0.9" ">=0.1,").toOption = some false := by decide +kernel
  rw [he] at hfalse
  cases hfalse

end

end ClearFeature
