import Mathlib.Data.List.TakeWhile

/-!
# Splitting URLs

A text is cut in scheme, network location, path, query and fragment. A URL put
together from the first three is read back up to its path, and of the path
exactly what has no character with a meaning in URLs comes back as it was.
-/

namespace UrlSplit

structure SplitResult where
  scheme : List Char
  netloc : List Char
  path : List Char
  query : List Char
  fragment : List Char
  deriving DecidableEq

def isC0ControlOrSpace (c : Char) : Bool := c.toNat ≤ 32

/-- The characters that are taken out of a URL before it is read. -/
def isUnsafe (c : Char) : Bool := c == '\t' || c == '\r' || c == '\n'

def isSchemeChar (c : Char) : Bool := c.isAlphanum || c == '+' || c == '-' || c == '.'

def isDelimiter (c : Char) : Bool := c == '/' || c == '?' || c == '#'

def isPlainNetlocChar (c : Char) : Bool := decide (c.toNat < 128) && c != '[' && c != ']'

def splitScheme (url : List Char) : List Char × List Char :=
  match url.takeWhile (· != ':'), url.dropWhile (· != ':') with
  | c :: cs, _ :: rest =>
    if c.isAlpha && (c :: cs).all isSchemeChar then ((c :: cs).map Char.toLower, rest) else ([], url)
  | _, _ => ([], url)

def splitNetloc : List Char → List Char × List Char
  | '/' :: '/' :: url => (url.takeWhile (!isDelimiter ·), url.dropWhile (!isDelimiter ·))
  | url => ([], url)

/-- `text.split(sep, 1)`, with nothing after a separator that is not there. -/
def cutAt (sep : Char) (text : List Char) : List Char × List Char :=
  (text.takeWhile (· != sep), (text.dropWhile (· != sep)).drop 1)

section
variable {ε : Type} (odd : List Char → Except ε Unit)

/-- A network location with a bracket or with a character beyond ASCII is looked at further, by `odd`. -/
def checkNetloc (netloc : List Char) : Except ε Unit :=
  if netloc.all isPlainNetlocChar then .ok () else odd netloc

def urlsplit (url : List Char) : Except ε SplitResult := do
  let url := (url.dropWhile isC0ControlOrSpace).filter (!isUnsafe ·)
  let (scheme, url) := splitScheme url
  let (netloc, url) := splitNetloc url
  checkNetloc odd netloc
  let (url, fragment) := cutAt '#' url
  let (path, query) := cutAt '?' url
  return { scheme, netloc, path, query, fragment }

end

/-! ## Classes of characters -/

section
variable {p q : Char → Bool} {marks : List Char} {c : Char}

/-- A character of a class has nothing of a class whose characters are all listed, and not in the first. -/
theorem eq_false_of_marks (hmarks : q c = true → c ∈ marks) (hp : marks.all (!p ·) = true) (h : p c = true) :
    q c = false := by
  by_contra hc
  have hmark := List.all_eq_true.mp hp c (hmarks (Bool.not_eq_false _ ▸ hc))
  rw [h] at hmark
  exact Bool.false_ne_true hmark

theorem isUnsafe_marks (h : isUnsafe c = true) : c ∈ ['\t', '\r', '\n'] := by
  simpa [isUnsafe, or_assoc] using h

theorem isDelimiter_marks (h : isDelimiter c = true) : c ∈ ['/', '?', '#'] := by
  simpa [isDelimiter, or_assoc] using h

end

/-! ## The path that comes back -/

def hasMeaning (c : Char) : Bool := isUnsafe c || c == '?' || c == '#'

theorem hasMeaning_marks {c : Char} (h : hasMeaning c = true) : c ∈ ['\t', '\r', '\n', '?', '#'] := by
  simpa [hasMeaning, isUnsafe, or_assoc] using h

theorem hasMeaning_of_all {text : List Char} (h : text.all (!hasMeaning ·) = true) : ∀ c ∈ text, hasMeaning c = false :=
  fun c hc => (Bool.not_eq_true' _).mp (List.all_eq_true.mp h c hc)

def readPath (path : List Char) : List Char := ((path.filter (!isUnsafe ·)).takeWhile (· != '#')).takeWhile (· != '?')

theorem readPath_sublist (path : List Char) : (readPath path).Sublist path :=
  ((List.takeWhile_sublist _).trans (List.takeWhile_sublist _)).trans List.filter_sublist

theorem readPath_eq_self_iff {path : List Char} : readPath path = path ↔ ∀ c ∈ path, hasMeaning c = false := by
  constructor
  · -- each step only leaves characters out, so each one has left none out
    intro h
    have hfilter : path.filter (!isUnsafe ·) = path := by
      have hrest : (readPath path).Sublist (path.filter (!isUnsafe ·)) :=
        (List.takeWhile_sublist _).trans (List.takeWhile_sublist _)
      rw [h] at hrest
      exact List.filter_sublist.eq_of_length_le hrest.length_le
    have hcut : path.takeWhile (· != '#') = path := by
      have hrest : (readPath path).Sublist ((path.filter (!isUnsafe ·)).takeWhile (· != '#')) := List.takeWhile_sublist _
      rw [h, hfilter] at hrest
      exact (List.takeWhile_sublist _).eq_of_length_le hrest.length_le
    have hquery : path.takeWhile (· != '?') = path := by rwa [readPath, hfilter, hcut] at h
    intro c hc
    have hsafe := List.filter_eq_self.mp hfilter c hc
    have hfragment := List.takeWhile_eq_self_iff.mp hcut c hc
    have hmark := List.takeWhile_eq_self_iff.mp hquery c hc
    simp only [Bool.not_eq_true', bne_iff_ne, ne_eq] at hsafe hfragment hmark
    simp [hasMeaning, hsafe, hfragment, hmark]
  · intro h
    simp only [hasMeaning, Bool.or_eq_false_iff, beq_eq_false_iff_ne] at h
    have hfilter : path.filter (!isUnsafe ·) = path := List.filter_eq_self.mpr fun c hc => by simp [(h c hc).1.1]
    have hcut : path.takeWhile (· != '#') = path := List.takeWhile_eq_self_iff.mpr fun c hc => by simp [(h c hc).2]
    have hquery : path.takeWhile (· != '?') = path := List.takeWhile_eq_self_iff.mpr fun c hc => by simp [(h c hc).1.2]
    rw [readPath, hfilter, hcut, hquery]

theorem readPath_slash (path : List Char) : readPath ('/' :: path) = '/' :: readPath path := by
  rw [readPath, readPath, List.filter_cons_of_pos (by decide), List.takeWhile_cons_of_pos (by decide),
    List.takeWhile_cons_of_pos (by decide)]

/-! ## URLs put together -/

theorem isUnsafe_of_schemeChar {c : Char} (h : isSchemeChar c = true) : isUnsafe c = false :=
  eq_false_of_marks isUnsafe_marks (by decide) h

theorem ne_colon_of_schemeChar {c : Char} (h : isSchemeChar c = true) : c ≠ ':' := by
  rintro rfl
  exact absurd h (by decide)

theorem toNat_between {lo hi c : Char} (h : c.val ≥ lo.val ∧ c.val ≤ hi.val) :
    lo.toNat ≤ c.toNat ∧ c.toNat ≤ hi.toNat :=
  ⟨UInt32.le_iff_toNat_le.mp h.1, UInt32.le_iff_toNat_le.mp h.2⟩

theorem val_between {lo hi c : Char} (h : (decide (c.val ≥ lo.val) && decide (c.val ≤ hi.val)) = true) :
    c.val ≥ lo.val ∧ c.val ≤ hi.val := by
  rwa [Bool.and_eq_true, decide_eq_true_eq, decide_eq_true_eq] at h

theorem toNat_of_isAlpha {c : Char} (h : c.isAlpha = true) : 'A'.toNat ≤ c.toNat ∧ c.toNat ≤ 'z'.toNat := by
  rcases Bool.or_eq_true_iff.mp (show (c.isUpper || c.isLower) = true from h) with h | h
  · have hc : 'A'.toNat ≤ c.toNat ∧ c.toNat ≤ 'Z'.toNat := toNat_between (of_decide_eq_true h)
    exact ⟨hc.1, le_trans hc.2 (by decide)⟩
  · have hc : 'a'.toNat ≤ c.toNat ∧ c.toNat ≤ 'z'.toNat := toNat_between (val_between h)
    exact ⟨le_trans (by decide) hc.1, hc.2⟩

theorem toNat_of_isAlphanum {c : Char} (h : c.isAlphanum = true) : '0'.toNat ≤ c.toNat ∧ c.toNat ≤ 'z'.toNat := by
  rcases Bool.or_eq_true_iff.mp (show (c.isAlpha || c.isDigit) = true from h) with h | h
  · have hc := toNat_of_isAlpha h
    exact ⟨le_trans (by decide) hc.1, hc.2⟩
  · have hc : '0'.toNat ≤ c.toNat ∧ c.toNat ≤ '9'.toNat := toNat_between (val_between h)
    exact ⟨hc.1, le_trans hc.2 (by decide)⟩

theorem not_control_of_isAlpha {c : Char} (h : c.isAlpha = true) : isC0ControlOrSpace c = false := by
  have hlow : ' '.toNat < c.toNat := lt_of_lt_of_le (by decide) (toNat_of_isAlpha h).1
  exact decide_eq_false (not_le.mpr hlow)

structure IsScheme (scheme : List Char) : Prop where
  begins : ∃ c cs, scheme = c :: cs ∧ c.isAlpha = true
  chars : ∀ c ∈ scheme, isSchemeChar c = true

/-- A network location that is read back whatever follows its slash. -/
structure IsPlainNetloc (netloc : List Char) : Prop where
  plain : ∀ c ∈ netloc, isPlainNetlocChar c = true
  inner : ∀ c ∈ netloc, isDelimiter c = false
  safe : ∀ c ∈ netloc, isUnsafe c = false

theorem splitScheme_build {scheme : List Char} (h : IsScheme scheme) (rest : List Char) :
    splitScheme (scheme ++ ':' :: rest) = (scheme.map Char.toLower, rest) := by
  have hcolon : ∀ c ∈ scheme, (c != ':') = true := fun c hc => bne_iff_ne.mpr (ne_colon_of_schemeChar (h.chars c hc))
  have htake : (scheme ++ ':' :: rest).takeWhile (· != ':') = scheme := by
    rw [List.takeWhile_append_of_pos hcolon, List.takeWhile_cons_of_neg (by decide), List.append_nil]
  have hdrop : (scheme ++ ':' :: rest).dropWhile (· != ':') = ':' :: rest := by
    rw [List.dropWhile_append_of_pos hcolon, List.dropWhile_cons_of_neg (by decide)]
  obtain ⟨c, cs, rfl, halpha⟩ := h.begins
  have hall : (c :: cs).all isSchemeChar = true := List.all_eq_true.mpr h.chars
  rw [splitScheme, htake, hdrop]
  simp only [halpha, hall, Bool.and_self, if_true]

theorem splitNetloc_build {netloc : List Char} (h : ∀ c ∈ netloc, isDelimiter c = false) (path : List Char) :
    splitNetloc ('/' :: '/' :: (netloc ++ '/' :: path)) = (netloc, '/' :: path) := by
  have hinner : ∀ c ∈ netloc, (!isDelimiter c) = true := fun c hc => by rw [h c hc]; rfl
  rw [splitNetloc, List.takeWhile_append_of_pos hinner, List.dropWhile_append_of_pos hinner,
    List.takeWhile_cons_of_neg (by decide), List.dropWhile_cons_of_neg (by decide), List.append_nil]

variable {ε : Type} {odd : List Char → Except ε Unit}

theorem urlsplit_build {scheme netloc : List Char} (hscheme : IsScheme scheme) (hnetloc : IsPlainNetloc netloc)
    (path : List Char) : ∃ query fragment, urlsplit odd (scheme ++ ':' :: '/' :: '/' :: (netloc ++ '/' :: path)) =
      .ok { scheme := scheme.map Char.toLower, netloc, path := '/' :: readPath path, query, fragment } := by
  have hstrip : (scheme ++ ':' :: '/' :: '/' :: (netloc ++ '/' :: path)).dropWhile isC0ControlOrSpace =
      scheme ++ ':' :: '/' :: '/' :: (netloc ++ '/' :: path) := by
    obtain ⟨c, cs, rfl, halpha⟩ := hscheme.begins
    rw [List.cons_append, List.dropWhile_cons_of_neg (by rw [not_control_of_isAlpha halpha]; exact Bool.false_ne_true)]
  have hfilter : (scheme ++ ':' :: '/' :: '/' :: (netloc ++ '/' :: path)).filter (!isUnsafe ·) =
      scheme ++ ':' :: '/' :: '/' :: (netloc ++ '/' :: path.filter (!isUnsafe ·)) := by
    have hs : scheme.filter (!isUnsafe ·) = scheme := List.filter_eq_self.mpr fun c hc => by
      rw [isUnsafe_of_schemeChar (hscheme.chars c hc)]
      rfl
    have hn : netloc.filter (!isUnsafe ·) = netloc := List.filter_eq_self.mpr fun c hc => by
      rw [hnetloc.safe c hc]
      rfl
    rw [List.filter_append, hs, List.filter_cons_of_pos (by decide), List.filter_cons_of_pos (by decide),
      List.filter_cons_of_pos (by decide), List.filter_append, hn, List.filter_cons_of_pos (by decide)]
  have hcheck : checkNetloc odd netloc = .ok () := if_pos (List.all_eq_true.mpr hnetloc.plain)
  let text := '/' :: path.filter (!isUnsafe ·)
  refine ⟨(cutAt '?' (cutAt '#' text).1).2, (cutAt '#' text).2, ?_⟩
  rw [urlsplit, hstrip, hfilter, splitScheme_build hscheme]
  simp only [splitNetloc_build hnetloc.inner, hcheck]
  rw [← readPath_slash, readPath, List.filter_cons_of_pos (by decide)]
  rfl

end UrlSplit
