import ClearFeature.Lib.Separated
import ClearFeature.Lib.UrlSplit
import ClearFeature.Value
import Mathlib.Algebra.GroupWithZero.Nat

/-!
# Addresses of raw payloads (`api/storage_uri.py`, `_parse_s3_uri`)

The builder joins bucket, report type, date and report reference to a URL; the
store takes the URL apart with a URL parser. What it reads is what was joined
exactly where no character has a meaning in URLs, and two addresses with
different references share a key exactly where one report type goes on over the
date of the other.
-/

namespace ClearFeature

open UrlSplit

/-! ## The date of an instant -/

/-- `_DAYS_IN_MONTH`, without its first entry. -/
def daysInMonth : List Nat := [31, 28, 31, 30, 31, 30, 31, 31, 30, 31, 30, 31]

/-- `_days_before_month` -/
def daysBeforeMonth (month : Nat) (leapYear : Bool) : Nat :=
  (daysInMonth.take (month - 1)).sum + if month > 2 ∧ leapYear then 1 else 0

/-- `_ord2ymd`: year, month and day of the day that is number `n` from 0001-01-01, which is number 1. -/
def ord2ymd (n : Nat) : Nat × Nat × Nat :=
  let n := n - 1
  let n400 := n / 146097
  let n := n % 146097
  let n100 := n / 36524
  let n := n % 36524
  let n4 := n / 1461
  let n := n % 1461
  let n1 := n / 365
  let n := n % 365
  let year := n400 * 400 + 1 + n100 * 100 + n4 * 4 + n1
  if n1 = 4 ∨ n100 = 4 then (year - 1, 12, 31)
  else
    let leapYear := decide (n1 = 3 ∧ (n4 ≠ 24 ∨ n100 = 3))
    -- an estimate that is one too many at most
    let month := (n + 50) / 32
    let month := if daysBeforeMonth month leapYear > n then month - 1 else month
    (year, month, n - daysBeforeMonth month leapYear + 1)

/-- The date in UTC; 1970-01-01 is day number 719163. -/
def utcDate (instant : Int) : Nat × Nat × Nat := ord2ymd (instant / 86400000000 + 719163).toNat

def zeroPadded : Nat → Nat → List Char
  | 0, _ => []
  | width + 1, n => zeroPadded width (n / 10) ++ [Nat.digitChar (n % 10)]

/-- `f"{ts:%Y/%m/%d}"`; `%Y` fills a year up to four digits, and it has no more. -/
def datePartition (instant : Int) : List Char :=
  let (year, month, day) := utcDate instant
  zeroPadded 4 year ++ '/' :: (zeroPadded 2 month ++ '/' :: zeroPadded 2 day)

theorem length_zeroPadded : ∀ width n : Nat, (zeroPadded width n).length = width
  | 0, _ => rfl
  | width + 1, n => by rw [zeroPadded, List.length_append, length_zeroPadded width, List.length_singleton]

theorem digitChar_isDigit (n : Nat) : (Nat.digitChar (n % 10)).isDigit = true := by
  have h : ∀ m < 10, (Nat.digitChar m).isDigit = true := by decide
  exact h (n % 10) (Nat.mod_lt n (by decide))

theorem isDigit_of_zeroPadded {c : Char} : ∀ {width n : Nat}, c ∈ zeroPadded width n → c.isDigit = true
  | 0, _, h => nomatch h
  | width + 1, n, h => by
    rcases List.mem_append.mp h with h | h
    · exact isDigit_of_zeroPadded h
    · rw [List.mem_singleton.mp h]
      exact digitChar_isDigit n

theorem slash_not_mem_zeroPadded {width n : Nat} : '/' ∉ zeroPadded width n := fun h =>
  absurd (isDigit_of_zeroPadded h) (by decide)

theorem length_datePartition (instant : Int) : (datePartition instant).length = 10 := by
  simp [datePartition, length_zeroPadded]

theorem mem_datePartition {c : Char} {instant : Int} (h : c ∈ datePartition instant) : c.isDigit = true ∨ c = '/' := by
  simp only [datePartition, List.mem_append, List.mem_cons] at h
  rcases h with h | rfl | h | rfl | h
  · exact .inl (isDigit_of_zeroPadded h)
  · exact .inr rfl
  · exact .inl (isDigit_of_zeroPadded h)
  · exact .inr rfl
  · exact .inl (isDigit_of_zeroPadded h)

theorem hasMeaning_of_isDigit {c : Char} (h : c.isDigit = true) : hasMeaning c = false :=
  @eq_false_of_marks Char.isDigit _ _ c hasMeaning_marks (by decide) h

example : String.ofList (datePartition 1782122400000000) = "2026/06/22" := by decide
example : utcDate 951782400000000 = (2000, 2, 29) := by decide

/-! ## Building and parsing -/

/-- `build_s3_storage_uri` -/
def buildS3StorageUri (bucket reportType reportRef : String) (reportTs : Int) : String :=
  let date := String.ofList (datePartition reportTs)
  s!"s3://{bucket}/{reportType}/{date}/{reportRef}.json.gz"

/-- `_parse_s3_uri`. `urlparse` splits off parameters for other schemes only. -/
def parseS3Uri (odd : List Char → Except PyErr Unit) (storageUri : String) : Except PyErr (String × String) := do
  let parsed ← urlsplit odd storageUri.toList
  let scheme := String.ofList parsed.scheme
  raiseIf (scheme ≠ "s3") s!"unsupported storage_uri scheme {reprStr scheme}; expected 's3'"
  let bucket := String.ofList parsed.netloc
  let key := String.ofList (parsed.path.dropWhile (· == '/'))
  raiseIf (bucket = "" ∨ key = "") s!"storage_uri {reprStr storageUri} must be 's3://bucket/key'"
  return (bucket, key)

def isBucketChar (c : Char) : Bool := c.isAlphanum || c == '.' || c == '-' || c == '_' || c == ':'

/-- A name that an object store client takes for a bucket. -/
structure BucketName where
  name : String
  ne : name ≠ ""
  chars : ∀ c ∈ name.toList, isBucketChar c = true

theorem isBucketChar_ascii {c : Char} (h : isBucketChar c = true) : c.toNat < 128 := by
  simp only [isBucketChar, Bool.or_eq_true, beq_iff_eq] at h
  rcases h with (((h | rfl) | rfl) | rfl) | rfl
  · exact lt_of_le_of_lt (toNat_of_isAlphanum h).2 (by decide)
  all_goals decide

theorem BucketName.plain (bucket : BucketName) : IsPlainNetloc bucket.name.toList := by
  refine ⟨fun c hc => ?_, fun c hc => ?_, fun c hc => ?_⟩
  · have hopen : c ≠ '[' := fun h => absurd (bucket.chars c hc) (by rw [h]; decide)
    have hclose : c ≠ ']' := fun h => absurd (bucket.chars c hc) (by rw [h]; decide)
    simp [isPlainNetlocChar, isBucketChar_ascii (bucket.chars c hc), hopen, hclose]
  · exact eq_false_of_marks isDelimiter_marks (by decide) (bucket.chars c hc)
  · exact eq_false_of_marks isUnsafe_marks (by decide) (bucket.chars c hc)

structure ReportAddress where
  reportType : String
  reportRef : String
  reportTs : Int

namespace ReportAddress

def uri (a : ReportAddress) (bucket : BucketName) : String :=
  buildS3StorageUri bucket.name a.reportType a.reportRef a.reportTs

def key (a : ReportAddress) : String :=
  let date := String.ofList (datePartition a.reportTs)
  s!"{a.reportType}/{date}/{a.reportRef}.json.gz"

/-- The key after the report type and before its extension. -/
def tail (a : ReportAddress) : List Char := '/' :: (datePartition a.reportTs ++ '/' :: a.reportRef.toList)

theorem key_toList (a : ReportAddress) : a.key.toList = a.reportType.toList ++ a.tail ++ ".json.gz".toList := by
  show (a.reportType ++ "/" ++ String.ofList (datePartition a.reportTs) ++ "/" ++ a.reportRef ++ ".json.gz").toList = _
  simp only [String.toList_append, String.toList_ofList, tail, List.append_assoc, List.cons_append]
  rfl

theorem uri_toList (a : ReportAddress) (bucket : BucketName) :
    (a.uri bucket).toList = ['s', '3'] ++ ':' :: '/' :: '/' :: (bucket.name.toList ++ '/' :: a.key.toList) := by
  show ("s3://" ++ bucket.name ++ "/" ++ a.reportType ++ "/" ++ String.ofList (datePartition a.reportTs) ++ "/" ++
    a.reportRef ++ ".json.gz").toList = _
  rw [key_toList]
  simp only [String.toList_append, String.toList_ofList, tail, List.append_assoc, List.cons_append]
  rfl

/-! ## What the store reads of an address -/

/-- No character with a meaning in URLs, and no slash in front. -/
structure Plain (a : ReportAddress) : Prop where
  type : ∀ c ∈ a.reportType.toList, hasMeaning c = false
  ref : ∀ c ∈ a.reportRef.toList, hasMeaning c = false
  begins : ∃ c cs, a.reportType.toList = c :: cs ∧ c ≠ '/'

def strippedKey (key : List Char) : List Char := (readPath key).dropWhile (· == '/')

theorem strippedKey_eq_self_iff {key : List Char} : strippedKey key = key ↔
    (∀ c ∈ key, hasMeaning c = false) ∧ ∀ cs, key ≠ '/' :: cs := by
  rw [← readPath_eq_self_iff]
  constructor
  · intro h
    have hread : readPath key = key := by
      have hrest : (strippedKey key).Sublist (readPath key) := List.dropWhile_sublist _
      rw [h] at hrest
      exact (readPath_sublist key).eq_of_length_le hrest.length_le
    refine ⟨hread, ?_⟩
    rintro cs rfl
    have hlength := congrArg List.length h
    rw [strippedKey, hread, List.dropWhile_cons_of_pos (by decide), List.length_cons] at hlength
    have hle := (List.dropWhile_sublist (· == '/') (l := cs)).length_le
    omega
  · rintro ⟨hread, hslash⟩
    rw [strippedKey, hread]
    cases key with
    | nil => rfl
    | cons c cs => exact List.dropWhile_cons_of_neg fun hc => hslash cs (by rw [beq_iff_eq.mp hc])

theorem parse_uri (odd : List Char → Except PyErr Unit) (bucket : BucketName) (a : ReportAddress) :
    parseS3Uri odd (a.uri bucket) =
      if strippedKey a.key.toList = [] then
        .error (.valueError s!"storage_uri {reprStr (a.uri bucket)} must be 's3://bucket/key'")
      else .ok (bucket.name, String.ofList (strippedKey a.key.toList)) := by
  have hscheme : IsScheme ['s', '3'] := ⟨⟨'s', ['3'], rfl, by decide⟩, List.all_eq_true.mp (by decide)⟩
  obtain ⟨query, fragment, h⟩ := @urlsplit_build _ odd _ _ hscheme bucket.plain a.key.toList
  have hpath : ('/' :: readPath a.key.toList).dropWhile (· == '/') = strippedKey a.key.toList :=
    List.dropWhile_cons_of_pos (by decide)
  have hempty : bucket.name = "" ∨ String.ofList (strippedKey a.key.toList) = "" ↔ strippedKey a.key.toList = [] := by
    rw [String.ofList_eq_empty_iff]
    exact or_iff_right bucket.ne
  rw [parseS3Uri, uri_toList, h]
  simp only [ok_bind, hpath, String.ofList_toList, hempty]
  rw [raiseIf, if_neg (by decide), ok_bind, raiseIf]
  split
  · rfl
  · rfl

theorem key_without_meaning {a : ReportAddress} : (∀ c ∈ a.key.toList, hasMeaning c = false) ↔
    (∀ c ∈ a.reportType.toList, hasMeaning c = false) ∧ ∀ c ∈ a.reportRef.toList, hasMeaning c = false := by
  have hslash : hasMeaning '/' = false := by decide
  have hdate : ∀ c ∈ datePartition a.reportTs, hasMeaning c = false := by
    intro c hc
    rcases mem_datePartition hc with hc | rfl
    · exact hasMeaning_of_isDigit hc
    · exact hslash
  have hextension : ∀ c ∈ ".json.gz".toList, hasMeaning c = false := hasMeaning_of_all (by decide)
  rw [key_toList, tail]
  simp only [List.forall_mem_append, List.forall_mem_cons]
  constructor
  · rintro ⟨⟨htype, -, -, -, href⟩, -⟩
    exact ⟨htype, href⟩
  · rintro ⟨htype, href⟩
    exact ⟨⟨htype, hslash, hdate, hslash, href⟩, hextension⟩

theorem key_without_slash {a : ReportAddress} : (∀ cs, a.key.toList ≠ '/' :: cs) ↔
    ∃ c cs, a.reportType.toList = c :: cs ∧ c ≠ '/' := by
  rw [key_toList]
  constructor
  · intro h
    cases htype : a.reportType.toList with
    | nil =>
      rw [htype] at h
      exact absurd rfl (h _)
    | cons c cs =>
      refine ⟨c, cs, rfl, ?_⟩
      rintro rfl
      rw [htype] at h
      exact absurd rfl (h _)
  · rintro ⟨c, cs, htype, hc⟩ ds h
    rw [htype] at h
    exact hc (List.cons.inj h).1

theorem parse_uri_iff (odd : List Char → Except PyErr Unit) (bucket : BucketName) (a : ReportAddress) :
    parseS3Uri odd (a.uri bucket) = .ok (bucket.name, a.key) ↔ a.Plain := by
  have hne : a.key.toList ≠ [] := by
    rw [key_toList]
    simp [tail]
  have hread : parseS3Uri odd (a.uri bucket) = .ok (bucket.name, a.key) ↔ strippedKey a.key.toList = a.key.toList := by
    rw [parse_uri]
    constructor
    · intro h
      split at h
      · exact nomatch h
      · have hkey := congrArg String.toList (Prod.mk.inj (Except.ok.inj h)).2
        rwa [String.toList_ofList] at hkey
    · intro h
      rw [h, if_neg hne, String.ofList_toList]
  rw [hread, strippedKey_eq_self_iff, key_without_meaning, key_without_slash]
  exact ⟨fun ⟨⟨htype, href⟩, hbegins⟩ => ⟨htype, href, hbegins⟩, fun ⟨htype, href, hbegins⟩ => ⟨⟨htype, href⟩, hbegins⟩⟩

/-! ## Addresses that share a key -/

/-- The report type of `b` is that of `a` with the date of `a` and more, and the reference of `a` is the rest of this,
the date of `b` and the reference of `b`. -/
def Overlaps (a b : ReportAddress) : Prop := ∃ between : List Char,
  b.reportType.toList = a.reportType.toList ++ '/' :: (datePartition a.reportTs ++ between) ∧
    '/' :: a.reportRef.toList = between ++ b.tail

theorem Overlaps.key_eq {a b : ReportAddress} (h : Overlaps a b) : a.key = b.key := by
  obtain ⟨between, htype, href⟩ := h
  apply String.toList_injective
  rw [key_toList, key_toList, htype, tail, href]
  simp only [List.append_assoc, List.cons_append]

structure TailParts (a : ReportAddress) (year month day : List Char) (parts : List (List Char)) : Prop where
  tail : a.tail = ['/'].intercalate ([] :: year :: month :: day :: parts)
  date : datePartition a.reportTs = year ++ '/' :: (month ++ '/' :: day)
  yearLength : year.length = 4
  monthLength : month.length = 2
  dayLength : day.length = 2
  free : ∀ part ∈ [] :: year :: month :: day :: parts, '/' ∉ part

theorem exists_tailParts (a : ReportAddress) : ∃ year month day parts, TailParts a year month day parts := by
  rcases hdate : utcDate a.reportTs with ⟨year, month, day⟩
  have htext : datePartition a.reportTs = zeroPadded 4 year ++ '/' :: (zeroPadded 2 month ++ '/' :: zeroPadded 2 day) := by
    rw [datePartition, hdate]
  have href : ['/'].intercalate (a.reportRef.toList.splitOn '/') = a.reportRef.toList := List.intercalate_splitOn '/'
  obtain ⟨first, rest, hparts⟩ := List.exists_cons_of_ne_nil (List.splitOn_ne_nil '/' a.reportRef.toList)
  refine ⟨zeroPadded 4 year, zeroPadded 2 month, zeroPadded 2 day, first :: rest, ?_, htext, length_zeroPadded _ _,
    length_zeroPadded _ _, length_zeroPadded _ _, ?_⟩
  · rw [tail, htext, ← href, hparts]
    simp only [List.intercalate_cons_cons, List.append_assoc, List.cons_append, List.nil_append]
  · rw [← hparts]
    simp only [List.forall_mem_cons]
    exact ⟨List.not_mem_nil, slash_not_mem_zeroPadded, slash_not_mem_zeroPadded, slash_not_mem_zeroPadded,
      fun part => Separated.not_mem_splitOn⟩

/-- A tail that ends with another one is this one, or has its own date in front of it: no other part before a tail is as
long as a year. -/
theorem start_of_tail {a b : ReportAddress} {start : List Char} (h : a.tail = start ++ b.tail) :
    start = [] ∨ ∃ between, start = '/' :: (datePartition a.reportTs ++ between) := by
  obtain ⟨year, month, day, parts, ha⟩ := exists_tailParts a
  obtain ⟨year', month', day', parts', hb⟩ := exists_tailParts b
  rw [ha.tail, hb.tail] at h
  obtain ⟨before, last, hsplit, rfl⟩ := Separated.join_suffix ha.free (List.cons_ne_nil _ _) List.not_mem_nil
    (fun part hp => hb.free part (List.mem_cons_of_mem _ hp)) h
  rw [List.append_nil] at hsplit
  rw [ha.date]
  match before, hsplit with
  | [], hsplit =>
    left
    rw [← (List.cons.inj hsplit).1]
    rfl
  | [first], hsplit =>
    have hpart := congrArg (fun parts => parts[2]?.map List.length) hsplit
    simp [ha.monthLength, hb.yearLength] at hpart
  | [first, second], hsplit =>
    have hpart := congrArg (fun parts => parts[3]?.map List.length) hsplit
    simp [ha.dayLength, hb.yearLength] at hpart
  | [first, second, third], hsplit =>
    simp only [List.cons_append, List.nil_append, List.cons.injEq] at hsplit
    obtain ⟨rfl, rfl, rfl, rfl, -⟩ := hsplit
    refine .inr ⟨[], ?_⟩
    simp [Separated.closed]
  | first :: second :: third :: fourth :: before, hsplit =>
    simp only [List.cons_append, List.cons.injEq] at hsplit
    obtain ⟨rfl, rfl, rfl, rfl, -⟩ := hsplit
    refine .inr ⟨'/' :: (Separated.closed '/' before ++ last), ?_⟩
    simp only [Separated.closed_cons, List.append_assoc, List.cons_append, List.nil_append]

theorem overlaps_of_start {a b : ReportAddress} {start : List Char}
    (htype : b.reportType.toList = a.reportType.toList ++ start) (htail : a.tail = start ++ b.tail)
    (hne : a.reportRef ≠ b.reportRef) : Overlaps a b := by
  rcases start_of_tail htail with rfl | ⟨between, rfl⟩
  · rw [List.nil_append, tail, tail] at htail
    have hdate : (datePartition a.reportTs).length = (datePartition b.reportTs).length := by
      rw [length_datePartition, length_datePartition]
    have href := (List.cons.inj (List.append_inj (List.cons.inj htail).2 hdate).2).2
    exact absurd (String.toList_injective href) hne
  · refine ⟨between, htype, ?_⟩
    rw [tail] at htail
    simp only [List.cons_append, List.append_assoc] at htail
    exact List.append_cancel_left (List.cons.inj htail).2

/-- Two addresses with different references have one key exactly where one overlaps the other. -/
theorem key_eq_iff {a b : ReportAddress} (hne : a.reportRef ≠ b.reportRef) :
    a.key = b.key ↔ Overlaps a b ∨ Overlaps b a := by
  constructor
  · intro h
    have htext := congrArg String.toList h
    rw [key_toList, key_toList] at htext
    rcases List.append_eq_append_iff.mp (List.append_cancel_right htext) with ⟨start, hb, ha⟩ | ⟨start, ha, hb⟩
    · exact .inl (overlaps_of_start hb ha hne)
    · exact .inr (overlaps_of_start ha hb hne.symm)
  · rintro (h | h)
    · exact h.key_eq
    · exact h.key_eq.symm

theorem Overlaps.slash {a b : ReportAddress} (h : Overlaps a b) : '/' ∈ b.reportType.toList := by
  obtain ⟨between, htype, -⟩ := h
  rw [htype]
  exact List.mem_append_right _ List.mem_cons_self

theorem not_overlaps_self {a : ReportAddress} : ¬ Overlaps a a := by
  rintro ⟨between, htype, -⟩
  have hlength := congrArg List.length htype
  rw [List.length_append, List.length_cons] at hlength
  omega

end ReportAddress

end ClearFeature
