import ClearFeature.AttemptHeader
import ClearFeature.Consistency
import ClearFeature.EntityKeys

/-!
# Addresses of online values (`fs_core/stores/valkey_online.py`)

The hash key and the field are joined with colons, which names of views and of
key fields may have. Two addresses of a registry are the same exactly where the
name of one view, up to the first key field, reads as the name of another view
followed by the beginning of its entity key.
-/

namespace ClearFeature

/-- `_key` -/
def onlineKey (view : String) (viewVersion : Int) (entityKeyEncoded : String) : String :=
  s!"fs:online:{view}:v{viewVersion}:{entityKeyEncoded}"

/-- `_field` -/
def onlineField (featureName : String) (featureVersion : Int) : String := s!"{featureName}:v{featureVersion}"

structure OnlineTuple where
  view : String
  viewVersion : Int
  entityKey : EntityKey
  feature : String
  featureVersion : Int

def OnlineTuple.address (t : OnlineTuple) : String × String :=
  (onlineKey t.view t.viewVersion t.entityKey.encode, onlineField t.feature t.featureVersion)

/-- A feature of a view, for an entity whose key is in the order of the view's key fields. -/
structure OnlineTuple.Of (t : OnlineTuple) (v : FeatureViewDef) (f : FeatureDef) : Prop where
  view : t.view = v.name
  viewVersion : t.viewVersion = v.viewVersion
  key : Dict.keys t.entityKey.parts = v.keyFields
  mem : f ∈ v.features
  feature : t.feature = f.name
  featureVersion : t.featureVersion = f.featureVersion

def Admits (r : Registry) (t : OnlineTuple) : Prop := ∃ v ∈ r.featureViews, ∃ f, t.Of v f

def AddressesDistinct (r : Registry) : Prop := ∀ t t', Admits r t → Admits r t' → t.address = t'.address → t = t'

/-! ## Where keys of two views meet -/

def onlinePrefix (view : FeatureViewDef) : String := s!"fs:online:{view.name}:v{view.viewVersion}:"

/-- The beginning of a key of `v`, up to the name `k` of a part, is the beginning of the keys of `w`, up to the first name;
the names after them are the same. -/
structure Meeting (v w : FeatureViewDef) (before : List (String × String)) (k l : String) (rest : List String) : Prop where
  left : v.keyFields = Dict.keys before ++ k :: rest
  right : w.keyFields = l :: rest
  values : ∀ p ∈ before, validatePart p.1 p.2 = .ok ()
  names : ∀ n ∈ k :: l :: rest, Plain n
  text : (onlinePrefix w).toList ++ l.toList =
    (onlinePrefix v).toList ++ Separated.closed '|' (before.map partText) ++ k.toList

def KeysMeet (v w : FeatureViewDef) : Prop := ∃ before k l rest, Meeting v w before k l rest

def ShareFeature (v w : FeatureViewDef) : Prop :=
  ∃ f ∈ v.features, ∃ g ∈ w.features, f.name = g.name ∧ f.featureVersion = g.featureVersion

/-! ## Fields and keys as texts -/

theorem toString_noColon (n : Int) : ':' ∉ (toString n).toList := by
  have hdigits : ∀ m, ':' ∉ Nat.toDigits 10 m := fun m hm =>
    absurd (Nat.isDigit_of_mem_toDigits (by decide) (by decide) hm) (by decide)
  rw [toString_toList]
  split
  · exact hdigits _
  · intro hm
    rcases List.mem_cons.mp hm with hm | hm
    · exact absurd hm (by decide)
    · exact hdigits _ hm

theorem toString_int_inj {m n : Int} (h : toString m = toString n) : m = n := by
  have hread := intOfText_toString m
  rw [h, intOfText_toString] at hread
  exact (Option.some.inj hread).symm

theorem onlineField_toList (name : String) (version : Int) :
    (onlineField name version).toList = name.toList ++ ':' :: ('v' :: (toString version).toList) := by
  show (name ++ ":v" ++ toString version).toList = _
  rw [String.toList_append, String.toList_append, List.append_assoc]
  rfl

theorem onlineField_inj {name name' : String} {version version' : Int} (h : onlineField name version = onlineField name' version') :
    name = name' ∧ version = version' := by
  have hfree : ∀ n : Int, ':' ∉ 'v' :: (toString n).toList := by
    intro n hm
    rcases List.mem_cons.mp hm with hm | hm
    · exact absurd hm (by decide)
    · exact toString_noColon n hm
  have htext := congrArg String.toList h
  rw [onlineField_toList, onlineField_toList] at htext
  obtain ⟨hname, hversion⟩ := Separated.last_cut_inj (hfree version) (hfree version') htext
  exact ⟨String.toList_injective hname, toString_int_inj (String.toList_injective (List.cons.inj hversion).2)⟩

theorem OnlineTuple.Of.key_toList {t : OnlineTuple} {v : FeatureViewDef} {f : FeatureDef} (h : t.Of v f) :
    (onlineKey t.view t.viewVersion t.entityKey.encode).toList =
      (onlinePrefix v).toList ++ (joinParts t.entityKey.parts).toList := by
  rw [h.view, h.viewVersion, t.entityKey.encoded_spec.2.2.2]
  exact String.toList_append

/-! ## Keys that are the same -/

theorem key_plain (k : EntityKey) : ∀ p ∈ k.parts, Plain p.1 ∧ Plain p.2 := fun p hp =>
  validatePart_ok (k.encoded_spec.2.1 p hp)

theorem partText_toList (p : String × String) : partText p = p.1.toList ++ '=' :: p.2.toList := by
  simp [partText]

/-- A part that ends with another part has its value, and a name that ends with its name. -/
theorem partText_suffix {k x l y : String} {start : List Char} (hk : Plain k ∧ Plain x) (hl : Plain l ∧ Plain y)
    (h : partText (k, x) = start ++ partText (l, y)) : k.toList = start ++ l.toList ∧ x = y := by
  rw [partText_toList, partText_toList, ← List.append_assoc] at h
  have hstart : '=' ∉ start := by
    intro hm
    obtain ⟨a, b, rfl, ha⟩ := List.eq_append_cons_of_mem hm
    rw [List.append_assoc, List.append_assoc] at h
    obtain ⟨-, hx⟩ := Separated.cut_inj hk.1.2 ha h
    exact hk.2.2 (hx ▸ List.mem_append_right _ (List.mem_append_right _ List.mem_cons_self))
  have hname : '=' ∉ start ++ l.toList := fun hm => (List.mem_append.mp hm).elim hstart hl.1.2
  obtain ⟨hkl, hxy⟩ := Separated.cut_inj hk.1.2 hname h
  exact ⟨hkl, String.toList_injective hxy⟩

theorem meeting_of_suffix {v w : FeatureViewDef} {a b : EntityKey} (ha : Dict.keys a.parts = v.keyFields)
    (hb : Dict.keys b.parts = w.keyFields) {start : List Char}
    (hfront : (onlinePrefix w).toList = (onlinePrefix v).toList ++ start)
    (h : (joinParts a.parts).toList = start ++ (joinParts b.parts).toList) : KeysMeet v w := by
  obtain ⟨hne, hvalid, -, -⟩ := a.encoded_spec
  have hplain := key_plain a
  have hplain' := key_plain b
  obtain ⟨⟨l, y⟩, rest, hparts⟩ := List.exists_cons_of_ne_nil b.encoded_spec.1
  rw [hparts] at hb h hplain'
  rw [joinParts_toList, joinParts_toList, List.map_cons] at h
  have hfree : ∀ part ∈ a.parts.map partText, '|' ∉ part := by
    intro part hp
    obtain ⟨p, hm, rfl⟩ := List.mem_map.mp hp
    exact partText_plain (hplain p hm)
  have hfree' : ∀ part ∈ rest.map partText, '|' ∉ part := by
    intro part hp
    obtain ⟨p, hm, rfl⟩ := List.mem_map.mp hp
    exact partText_plain (hplain' p (List.mem_cons_of_mem _ hm))
  obtain ⟨before', last, hsplit, rfl⟩ := Separated.join_suffix hfree (by simpa using hne)
    (partText_plain (hplain' (l, y) List.mem_cons_self)) hfree' h
  obtain ⟨before, further, hsame, rfl, hfurther⟩ := List.map_eq_append_iff.mp hsplit
  obtain ⟨⟨k, x⟩, rest', rfl, hkx, hrest⟩ := List.map_eq_cons_iff.mp hfurther
  rw [hsame] at ha hplain hvalid
  have hmem : ∀ p ∈ (k, x) :: rest', p ∈ before ++ (k, x) :: rest' := fun p hp => List.mem_append_right _ hp
  obtain rfl := partTexts_inj (fun p hp => hplain p (hmem p (List.mem_cons_of_mem _ hp)))
    (fun p hp => hplain' p (List.mem_cons_of_mem _ hp)) hrest
  have hk := hplain (k, x) (hmem _ List.mem_cons_self)
  obtain ⟨hname, -⟩ := partText_suffix hk (hplain' (l, y) List.mem_cons_self) hkx
  refine ⟨before, k, l, Dict.keys rest', ?_, hb.symm, fun p hp => hvalid p (List.mem_append_left _ hp), ?_, ?_⟩
  · rw [← ha, Dict.keys, List.map_append, List.map_cons]
    rfl
  · intro n hn
    rcases List.mem_cons.mp hn with rfl | hn
    · exact hk.1
    rcases List.mem_cons.mp hn with rfl | hn
    · exact (hplain' (n, y) List.mem_cons_self).1
    · obtain ⟨p, hp, rfl⟩ := List.mem_map.mp hn
      exact (hplain' p (List.mem_cons_of_mem _ hp)).1
  · rw [hfront, hname]
    simp only [List.append_assoc]

theorem address_eq {t t' : OnlineTuple} {v w : FeatureViewDef} {f g : FeatureDef} (h : t.Of v f) (h' : t'.Of w g)
    (heq : t.address = t'.address) : ShareFeature v w ∧
      (onlinePrefix v).toList ++ (joinParts t.entityKey.parts).toList =
        (onlinePrefix w).toList ++ (joinParts t'.entityKey.parts).toList := by
  obtain ⟨hkey, hfield⟩ := Prod.mk.inj heq
  obtain ⟨hname, hversion⟩ := onlineField_inj hfield
  refine ⟨⟨f, h.mem, g, h'.mem, ?_, ?_⟩, ?_⟩
  · rw [← h.feature, ← h'.feature, hname]
  · rw [← h.featureVersion, ← h'.featureVersion, hversion]
  · rw [← h.key_toList, ← h'.key_toList, hkey]

/-- Two tuples of one address are of one view, or their views meet. -/
theorem meet_of_address_eq {t t' : OnlineTuple} {v w : FeatureViewDef} {f g : FeatureDef} (h : t.Of v f) (h' : t'.Of w g)
    (heq : t.address = t'.address) (hne : t ≠ t') : v ≠ w ∧ ShareFeature v w ∧ (KeysMeet v w ∨ KeysMeet w v) := by
  obtain ⟨hshare, htext⟩ := address_eq h h' heq
  refine ⟨?_, hshare, ?_⟩
  · rintro rfl
    obtain ⟨hname, hversion⟩ := onlineField_inj (Prod.mk.inj heq).2
    have hjoin := String.toList_injective (List.append_cancel_left htext)
    have hentity : t.entityKey = t'.entityKey := EntityKey.eq_of_encode (by
      rw [t.entityKey.encoded_spec.2.2.2, t'.entityKey.encoded_spec.2.2.2, hjoin])
    obtain ⟨view, version, key, feature, fversion⟩ := t
    obtain ⟨view', version', key', feature', fversion'⟩ := t'
    obtain rfl : view = view' := h.view.trans h'.view.symm
    obtain rfl : version = version' := h.viewVersion.trans h'.viewVersion.symm
    exact hne (by rw [show key = key' from hentity, show feature = feature' from hname, show fversion = fversion' from hversion])
  · rcases List.append_eq_append_iff.mp htext with ⟨start, hw, hv⟩ | ⟨start, hv, hw⟩
    · exact .inl (meeting_of_suffix h.key h'.key hw hv)
    · exact .inr (meeting_of_suffix h'.key h.key hv hw)

/-! ## Views that meet -/

theorem checkNoEmptyOrDuplicate_ok {ctx : String} : ∀ {names seen : List String} {u : Unit},
    checkNoEmptyOrDuplicate ctx seen names = .ok u → (∀ n ∈ names, isBlank n = false ∧ n ∉ seen) ∧ names.Nodup
  | [], seen, u, _ => ⟨fun n hn => (nomatch hn), List.nodup_nil⟩
  | name :: names, seen, u, h => by
    simp only [checkNoEmptyOrDuplicate, bind_eq_ok, raiseIf_eq_ok] at h
    obtain ⟨_, hblank, _, hseen, h⟩ := h
    obtain ⟨hall, hnodup⟩ := checkNoEmptyOrDuplicate_ok h
    constructor
    · intro n hn
      rcases List.mem_cons.mp hn with rfl | hn
      · exact ⟨Bool.eq_false_of_not_eq_true hblank, hseen⟩
      · exact ⟨(hall n hn).1, fun hm => (hall n hn).2 (List.mem_cons_of_mem _ hm)⟩
    · exact List.nodup_cons.mpr ⟨fun hm => (hall name hm).2 List.mem_cons_self, hnodup⟩

theorem keyFields_ok (v : FeatureViewDef) : (∀ n ∈ v.keyFields, isBlank n = false) ∧ v.keyFields.Nodup := by
  have h := v.ok
  simp only [ViewFields.check, bind_eq_ok] at h
  obtain ⟨_, -, _, -, _, -, _, hfields, -⟩ := h
  obtain ⟨hall, hnodup⟩ := checkNoEmptyOrDuplicate_ok hfields
  exact ⟨fun n hn => (hall n hn).1, hnodup⟩

theorem exists_entityKey {parts : List (String × String)} (hne : parts ≠ []) (hn : (Dict.keys parts).Nodup)
    (hv : ∀ p ∈ parts, validatePart p.1 p.2 = .ok ()) : ∃ k : EntityKey, k.parts = parts := by
  refine ⟨⟨parts, joinParts parts, ?_⟩, rfl⟩
  rw [encodeParts, dictOf_of_nodup hn]
  refine encodeEntityKey_order.mpr ⟨hne, hv, validateKeyOrder_eq_ok.mpr ⟨?_, fun _ h => h, fun _ h => h⟩, ?_⟩
  · rw [Dict.keys, List.length_map]
  · rw [map_partOf hn]

theorem validatePart_x {name : String} (hblank : isBlank name = false) (hplain : Plain name) :
    validatePart name "x" = .ok () := by
  have hname : checkReserved "name" name = .ok () := by
    simp [checkReserved, hasChar, hplain.1, hplain.2]
  rw [validatePart, hblank, if_neg Bool.false_ne_true, if_neg (by decide), hname, ok_bind]
  rfl

theorem join_from_name (start : List Char) (before : List (String × String)) (name : String) (rest : List (String × String)) :
    start ++ (joinParts (before ++ (name, "x") :: rest)).toList =
      start ++ Separated.closed '|' (before.map partText) ++ name.toList ++
        ['|'].intercalate (['=', 'x'] :: rest.map partText) := by
  have hpart : partText (name, "x") = name.toList ++ ['=', 'x'] := by simp [partText_toList]
  rw [joinParts_toList, List.map_append, List.map_cons, Separated.intercalate_append_cons, hpart,
    ← Separated.append_intercalate]
  simp only [List.append_assoc]

theorem join_first_name (start : List Char) (name : String) (rest : List (String × String)) :
    start ++ (joinParts ((name, "x") :: rest)).toList =
      start ++ name.toList ++ ['|'].intercalate (['=', 'x'] :: rest.map partText) := by
  have hclosed : start ++ Separated.closed '|' (([] : List (String × String)).map partText) = start := List.append_nil start
  have h := join_from_name start [] name rest
  rw [hclosed] at h
  exact h

theorem Meeting.collide {v w : FeatureViewDef} {before : List (String × String)} {k l : String} {rest : List String}
    (h : Meeting v w before k l rest) (hshare : ShareFeature v w) : ∃ t t' : OnlineTuple,
      (∃ f, t.Of v f) ∧ (∃ g, t'.Of w g) ∧ t.address = t'.address := by
  obtain ⟨f, hf, g, hg, hname, hversion⟩ := hshare
  obtain ⟨hblank, hnodup⟩ := keyFields_ok v
  obtain ⟨hblank', hnodup'⟩ := keyFields_ok w
  have htail : Dict.keys (rest.map fun n => (n, "x")) = rest := by
    rw [Dict.keys, List.map_map]
    exact List.map_id _
  have hkeys : Dict.keys (before ++ (k, "x") :: rest.map fun n => (n, "x")) = v.keyFields := by
    rw [h.left, Dict.keys, List.map_append, List.map_cons]
    exact congrArg (fun names => Dict.keys before ++ k :: names) htail
  have hkeys' : Dict.keys ((l, "x") :: rest.map fun n => (n, "x")) = w.keyFields := by
    rw [h.right, Dict.keys, List.map_cons]
    exact congrArg (l :: ·) htail
  have hrest : ∀ p ∈ rest.map fun n => (n, "x"), validatePart p.1 p.2 = .ok () := by
    intro p hp
    obtain ⟨n, hn, rfl⟩ := List.mem_map.mp hp
    refine validatePart_x (hblank' n ?_) (h.names n (List.mem_cons_of_mem _ (List.mem_cons_of_mem _ hn)))
    rw [h.right]
    exact List.mem_cons_of_mem _ hn
  have hk : validatePart k "x" = .ok () := by
    refine validatePart_x (hblank k ?_) (h.names k List.mem_cons_self)
    rw [h.left]
    exact List.mem_append_right _ List.mem_cons_self
  have hl : validatePart l "x" = .ok () := by
    refine validatePart_x (hblank' l ?_) (h.names l (List.mem_cons_of_mem _ List.mem_cons_self))
    rw [h.right]
    exact List.mem_cons_self
  obtain ⟨a, ha⟩ := @exists_entityKey (before ++ (k, "x") :: rest.map fun n => (n, "x"))
    (List.append_ne_nil_of_right_ne_nil _ (List.cons_ne_nil _ _)) (hkeys ▸ hnodup)
    (List.forall_mem_append.mpr ⟨h.values, List.forall_mem_cons.mpr ⟨hk, hrest⟩⟩)
  obtain ⟨b, hb⟩ := @exists_entityKey ((l, "x") :: rest.map fun n => (n, "x")) (List.cons_ne_nil _ _)
    (hkeys' ▸ hnodup') (List.forall_mem_cons.mpr ⟨hl, hrest⟩)
  have hof : OnlineTuple.Of ⟨v.name, v.viewVersion, a, f.name, f.featureVersion⟩ v f :=
    ⟨rfl, rfl, (congrArg Dict.keys ha).trans hkeys, hf, rfl, rfl⟩
  have hof' : OnlineTuple.Of ⟨w.name, w.viewVersion, b, g.name, g.featureVersion⟩ w g :=
    ⟨rfl, rfl, (congrArg Dict.keys hb).trans hkeys', hg, rfl, rfl⟩
  refine ⟨_, _, ⟨f, hof⟩, ⟨g, hof'⟩, Prod.ext (String.toList_injective ?_) (by
    show onlineField f.name f.featureVersion = onlineField g.name g.featureVersion
    rw [hname, hversion])⟩
  show (onlineKey v.name v.viewVersion a.encode).toList = (onlineKey w.name w.viewVersion b.encode).toList
  rw [hof.key_toList, hof'.key_toList, ha, hb, join_from_name, ← h.text, join_first_name]

theorem KeysMeet.colon {v w : FeatureViewDef} (h : KeysMeet v w) (hne : v.name ≠ w.name) :
    ':' ∈ v.name.toList ∨ ':' ∈ w.name.toList := by
  obtain ⟨before, k, l, rest, hmeet⟩ := h
  by_contra hfree
  obtain ⟨hv, hw⟩ := not_or.mp hfree
  have hfront : ∀ view : FeatureViewDef, (onlinePrefix view).toList =
      "fs:online:".toList ++ (view.name.toList ++ ':' :: ('v' :: (toString view.viewVersion).toList ++ [':'])) := by
    intro view
    show ("fs:online:" ++ view.name ++ ":v" ++ toString view.viewVersion ++ ":").toList = _
    simp only [String.toList_append, List.append_assoc]
    rfl
  have htext := hmeet.text
  rw [hfront, hfront] at htext
  simp only [List.append_assoc, List.cons_append] at htext
  obtain ⟨hname, -⟩ := Separated.cut_inj hw hv (List.append_cancel_left htext)
  exact hne (String.toList_injective hname.symm)

/-- For every validated registry: addresses are distinct exactly when no two views that share a feature have keys that
meet; so they are where no name of a view has a colon. -/
theorem addresses_distinct_iff {r : Registry} (hr : validateRegistry r = .ok ()) :
    (AddressesDistinct r ↔
      ∀ v ∈ r.featureViews, ∀ w ∈ r.featureViews, v ≠ w → ShareFeature v w → ¬ KeysMeet v w) ∧
    ((∀ v ∈ r.featureViews, ':' ∉ v.name.toList) → AddressesDistinct r) := by
  have hnames : ∀ v ∈ r.featureViews, ∀ w ∈ r.featureViews, v.name = w.name → v = w := fun v hv w hw h =>
    List.inj_on_of_nodup_map (viewNames_nodup hr) hv hw h
  have hiff : AddressesDistinct r ↔
      ∀ v ∈ r.featureViews, ∀ w ∈ r.featureViews, v ≠ w → ShareFeature v w → ¬ KeysMeet v w := by
    constructor
    · rintro hdistinct v hv w hw hne hshare ⟨before, k, l, rest, hmeet⟩
      obtain ⟨t, t', ⟨f, hof⟩, ⟨g, hof'⟩, heq⟩ := hmeet.collide hshare
      have hsame := hdistinct t t' ⟨v, hv, f, hof⟩ ⟨w, hw, g, hof'⟩ heq
      subst hsame
      exact hne (hnames v hv w hw (hof.view.symm.trans hof'.view))
    · rintro hnone t t' ⟨v, hv, f, hof⟩ ⟨w, hw, g, hof'⟩ heq
      by_contra hne
      obtain ⟨hvw, hshare, hmeet | hmeet⟩ := meet_of_address_eq hof hof' heq hne
      · exact hnone v hv w hw hvw hshare hmeet
      · obtain ⟨f', hf', g', hg', hname, hversion⟩ := hshare
        exact hnone w hw v hv (Ne.symm hvw) ⟨g', hg', f', hf', hname.symm, hversion.symm⟩ hmeet
  refine ⟨hiff, ?_⟩
  intro hcolon
  apply hiff.mpr
  intro v hv w hw hne _ hmeet
  cases hmeet.colon fun h => hne (hnames v hv w hw h) with
  | inl h => exact hcolon v hv h
  | inr h => exact hcolon w hw h

/-! ## Two views with one address -/

def loanEntity : EntityDef := ⟨{ name := "loan", keyFields := ["loan:v1:user_id"] }, by decide⟩

/-- Its name is that of `lastView` with the beginning of a key. -/
def loanView : FeatureViewDef where
  name := "risk:v1:loan"
  entity := "user"
  keyFields := ["user_id"]
  viewVersion := 1
  owner := "o"
  status := "live"
  features := [lastFeature]
  ok := by decide
  groups_nodup := by exact List.nodup_nil

def riskView : FeatureViewDef where
  name := "risk"
  entity := "loan"
  keyFields := ["loan:v1:user_id"]
  viewVersion := 1
  owner := "o"
  status := "live"
  features := [lastFeature]
  ok := by decide
  groups_nodup := by exact List.nodup_nil

def loanRegistry : Registry where
  registryVersion := "1"
  entities := [userEntity, loanEntity]
  sources := [sourceA, sourceB]
  featureViews := [riskView, loanView]
  ok := by decide

theorem loan_addresses_collide : validateRegistry loanRegistry = .ok () ∧ ¬ AddressesDistinct loanRegistry := by
  refine ⟨by decide +kernel, fun h => ?_⟩
  have hsame := h ⟨"risk", 1, ⟨[("loan:v1:user_id", "1")], "loan:v1:user_id=1", by decide⟩, "last", 1⟩
    ⟨"risk:v1:loan", 1, userKey, "last", 1⟩
    ⟨riskView, by decide, lastFeature, rfl, rfl, rfl, List.mem_singleton.mpr rfl, rfl, rfl⟩
    ⟨loanView, by decide, lastFeature, rfl, rfl, rfl, List.mem_singleton.mpr rfl, rfl, rfl⟩ (by decide +kernel)
  exact absurd (congrArg OnlineTuple.view hsame) (by decide)

/-- Keys of one field meet where the names with their fields are the same text. -/
theorem KeysMeet.single {v w : FeatureViewDef} {k l : String} (hv : v.keyFields = [k]) (hw : w.keyFields = [l])
    (h : KeysMeet v w) : (onlinePrefix w).toList ++ l.toList = (onlinePrefix v).toList ++ k.toList := by
  obtain ⟨before, k', l', rest, hmeet⟩ := h
  have hleft := hmeet.left
  have hright := hmeet.right
  rw [hv] at hleft
  rw [hw] at hright
  obtain ⟨rfl, rfl⟩ := List.cons.inj hright
  cases before with
  | nil =>
    obtain ⟨rfl, -⟩ := List.cons.inj hleft
    have htext := hmeet.text
    rwa [List.map_nil, show Separated.closed '|' ([] : List (List Char)) = [] from rfl, List.append_nil] at htext
  | cons p before => simp [Dict.keys] at hleft

/-- Two views that share a feature, one named like the other with the beginning of a key. -/
def sharedRegistry : Registry where
  registryVersion := "1"
  entities := [userEntity]
  sources := [sourceA, sourceB]
  featureViews := [lastView, loanView]
  ok := by decide

theorem addresses_distinct_iff_shared : ShareFeature lastView loanView ∧ AddressesDistinct sharedRegistry := by
  have hr : validateRegistry sharedRegistry = .ok () := by
    decide +kernel
  have hviews : ∀ v ∈ sharedRegistry.featureViews, v = lastView ∨ v = loanView := by
    intro v hv
    simpa [sharedRegistry] using hv
  refine ⟨⟨lastFeature, by decide, lastFeature, by decide, rfl, rfl⟩, ?_⟩
  apply (addresses_distinct_iff hr).1.mpr
  intro v hv w hw hne _ hmeet
  rcases hviews v hv with rfl | rfl
  · rcases hviews w hw with rfl | rfl
    · exact hne rfl
    · exact absurd (hmeet.single rfl rfl) (by decide +kernel)
  · rcases hviews w hw with rfl | rfl
    · exact absurd (hmeet.single rfl rfl) (by decide +kernel)
    · exact hne rfl

end ClearFeature
