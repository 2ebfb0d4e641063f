import ClearFeature.Value
import ClearFeature.Lib.Dict
import ClearFeature.Lib.StableSort
import Mathlib.Data.String.Basic

/-!
# When canonical texts agree

A value is printed after its object keys are sorted, so equal texts are equal
normal forms: a printed value ends where its brackets close, whatever follows.
-/

namespace ClearFeature

open StableSort

mutual
/-- The value with sorted keys; with `eqv` set, numbers that `==` identifies are one number. -/
def Value.normal (eqv : Bool) : Value → Value
  | .null => .null
  | .bool b => if eqv then .int (if b then 1 else 0) else .bool b
  | .int n => .int n
  | .float x =>
    match eqv, x.toInt? with
    | true, some n => .int n
    | _, _ => .float x
  | .str s => .str s
  | .arr xs => .arr (Value.normalList eqv xs)
  | .obj kvs => .obj (sortedBy Prod.fst (Value.normalFields eqv kvs))
def Value.normalList (eqv : Bool) : List Value → List Value
  | [] => []
  | x :: xs => x.normal eqv :: Value.normalList eqv xs
def Value.normalFields (eqv : Bool) : List (String × Value) → List (String × Value)
  | [] => []
  | (k, v) :: kvs => (k, v.normal eqv) :: Value.normalFields eqv kvs
end

mutual
def Value.print : Value → List JsonTok
  | .null => [.null]
  | .bool b => [.bool b]
  | .int n => [.int n]
  | .float x => [.float x]
  | .str s => [.str s]
  | .arr xs => .openArr :: (Value.printList xs ++ [.closeArr])
  | .obj kvs => .openObj :: (Value.printFields kvs ++ [.closeObj])
def Value.printList : List Value → List JsonTok
  | [] => []
  | x :: xs => x.print ++ Value.printList xs
def Value.printFields : List (String × Value) → List JsonTok
  | [] => []
  | (k, v) :: kvs => .str k :: (v.print ++ Value.printFields kvs)
end

theorem Value.normalList_eq_map (eqv : Bool) (xs : List Value) : Value.normalList eqv xs = xs.map (Value.normal eqv) := by
  induction xs with
  | nil => rfl
  | cons x xs ih => rw [Value.normalList, ih, List.map_cons]

theorem Value.normalFields_eq_map (eqv : Bool) (kvs : List (String × Value)) :
    Value.normalFields eqv kvs = kvs.map fun e => (e.1, e.2.normal eqv) := by
  induction kvs with
  | nil => rfl
  | cons kv kvs ih =>
    obtain ⟨k, v⟩ := kv
    rw [Value.normalFields, ih, List.map_cons]

theorem Value.printFields_eq_flatMap (kvs : List (String × Value)) :
    Value.printFields kvs = kvs.flatMap fun e => .str e.1 :: e.2.print := by
  induction kvs with
  | nil => rfl
  | cons kv kvs ih =>
    obtain ⟨k, v⟩ := kv
    rw [Value.printFields, ih, List.flatMap_cons]
    rfl

theorem joinFields_print (kvs : List (String × Value)) :
    joinFields (kvs.map fun e => (e.1, e.2.print)) = Value.printFields (sortedBy Prod.fst kvs) := by
  unfold joinFields sortedBy
  rw [Value.printFields_eq_flatMap, ← List.map_insertionSort (fun a b : String × Value => a.1 ≤ b.1)
    (fun a b : String × List JsonTok => a.1 ≤ b.1) _ _ fun _ _ _ _ => Iff.rfl, List.flatMap_map]

mutual
theorem Value.toks_eq_print (eqv : Bool) : ∀ v : Value, v.toks eqv = (v.normal eqv).print
  | .null => rfl
  | .bool b => by cases eqv <;> rfl
  | .int n => rfl
  | .float x => by
    cases eqv with
    | false => rfl
    | true => cases h : x.toInt? <;> simp [Value.toks, Value.normal, Value.print, h]
  | .str s => rfl
  | .arr xs => by simp only [Value.toks, Value.normal, Value.print, Value.toksList_eq_print eqv xs]
  | .obj kvs => by
    simp only [Value.toks, Value.normal, Value.print, Value.toksFields_eq_print eqv kvs, joinFields_print]
theorem Value.toksList_eq_print (eqv : Bool) : ∀ xs : List Value,
    Value.toksList eqv xs = Value.printList (Value.normalList eqv xs)
  | [] => rfl
  | x :: xs => by
    simp only [Value.toksList, Value.normalList, Value.printList, Value.toks_eq_print eqv x,
      Value.toksList_eq_print eqv xs]
theorem Value.toksFields_eq_print (eqv : Bool) : ∀ kvs : List (String × Value),
    Value.toksFields eqv kvs = (Value.normalFields eqv kvs).map fun e => (e.1, e.2.print)
  | [] => rfl
  | (k, v) :: kvs => by
    simp only [Value.toksFields, Value.normalFields, List.map_cons, Value.toks_eq_print eqv v,
      Value.toksFields_eq_print eqv kvs]
end

/-! ## A text is read back in one way -/

mutual
theorem Value.print_append_inj : ∀ (a b : Value) (r s : List JsonTok),
    a.print ++ r = b.print ++ s → a = b ∧ r = s
  | .null, b, r, s, h => by cases b <;> simp_all [Value.print]
  | .bool _, b, r, s, h => by cases b <;> simp_all [Value.print]
  | .int _, b, r, s, h => by cases b <;> simp_all [Value.print]
  | .float _, b, r, s, h => by cases b <;> simp_all [Value.print]
  | .str _, b, r, s, h => by cases b <;> simp_all [Value.print]
  | .arr xs, b, r, s, h => by
    cases b with
    | arr ys =>
      simp only [Value.print, List.cons_append, List.append_assoc, List.cons.injEq, true_and, List.nil_append] at h
      obtain ⟨rfl, e⟩ := Value.printList_append_inj xs ys r s h
      exact ⟨rfl, e⟩
    | _ => simp [Value.print] at h
  | .obj kvs, b, r, s, h => by
    cases b with
    | obj kvs' =>
      simp only [Value.print, List.cons_append, List.append_assoc, List.cons.injEq, true_and, List.nil_append] at h
      obtain ⟨rfl, e⟩ := Value.printFields_append_inj kvs kvs' r s h
      exact ⟨rfl, e⟩
    | _ => simp [Value.print] at h
theorem Value.printList_append_inj : ∀ (xs ys : List Value) (r s : List JsonTok),
    Value.printList xs ++ .closeArr :: r = Value.printList ys ++ .closeArr :: s → xs = ys ∧ r = s
  | [], [], r, s, h => by simpa [Value.printList] using h
  | [], y :: ys, r, s, h => by cases y <;> simp [Value.printList, Value.print] at h
  | x :: xs, [], r, s, h => by cases x <;> simp [Value.printList, Value.print] at h
  | x :: xs, y :: ys, r, s, h => by
    simp only [Value.printList, List.append_assoc] at h
    obtain ⟨rfl, hrest⟩ := Value.print_append_inj x y _ _ h
    obtain ⟨rfl, e⟩ := Value.printList_append_inj xs ys r s hrest
    exact ⟨rfl, e⟩
theorem Value.printFields_append_inj : ∀ (kvs kvs' : List (String × Value)) (r s : List JsonTok),
    Value.printFields kvs ++ .closeObj :: r = Value.printFields kvs' ++ .closeObj :: s → kvs = kvs' ∧ r = s
  | [], [], r, s, h => by simpa [Value.printFields] using h
  | [], (k, v) :: kvs, r, s, h => by simp [Value.printFields] at h
  | (k, v) :: kvs, [], r, s, h => by simp [Value.printFields] at h
  | (k, v) :: kvs, (k', v') :: kvs', r, s, h => by
    simp only [Value.printFields, List.cons_append, List.append_assoc, List.cons.injEq, JsonTok.str.injEq] at h
    obtain ⟨rfl, hvalue⟩ := h
    obtain ⟨rfl, hrest⟩ := Value.print_append_inj v v' _ _ hvalue
    obtain ⟨rfl, e⟩ := Value.printFields_append_inj kvs kvs' r s hrest
    exact ⟨rfl, e⟩
end

theorem Value.toks_eq_iff {eqv : Bool} {a b : Value} : a.toks eqv = b.toks eqv ↔ a.normal eqv = b.normal eqv := by
  rw [Value.toks_eq_print, Value.toks_eq_print]
  refine ⟨fun h => ?_, fun h => by rw [h]⟩
  exact (Value.print_append_inj _ _ [] [] (by rw [List.append_nil, List.append_nil, h])).1

theorem Value.pyEq_iff_normal {a b : Value} : a.pyEq b = true ↔ a.normal true = b.normal true :=
  Value.pyEq_iff.trans Value.toks_eq_iff

/-! ## Objects -/

@[simp] theorem Value.normal_str (eqv : Bool) (s : String) : (Value.str s).normal eqv = .str s := rfl

@[simp] theorem Value.normal_int (eqv : Bool) (n : Int) : (Value.int n).normal eqv = .int n := rfl

@[simp] theorem Value.normal_null (eqv : Bool) : Value.null.normal eqv = .null := rfl

theorem Value.normal_arr (eqv : Bool) (xs : List Value) :
    (Value.arr xs).normal eqv = .arr (xs.map (Value.normal eqv)) := by
  rw [Value.normal, Value.normalList_eq_map]

/-- Objects are equal when they have the same entries. -/
theorem Value.normal_obj_eq_iff_perm {eqv : Bool} {kvs kvs' : List (String × Value)} (hn : (Dict.keys kvs).Nodup) :
    (Value.obj kvs).normal eqv = (Value.obj kvs').normal eqv ↔
      (kvs.map fun e => (e.1, e.2.normal eqv)).Perm (kvs'.map fun e => (e.1, e.2.normal eqv)) := by
  rw [Value.normal, Value.normal, Value.obj.injEq, Value.normalFields_eq_map, Value.normalFields_eq_map]
  refine sortedBy_eq_iff_perm _ fun a ha b hb h => ?_
  have hkeys : ((kvs.map fun e => (e.1, e.2.normal eqv)).map Prod.fst).Nodup := by
    rw [List.map_map]
    exact hn
  exact List.inj_on_of_nodup_map hkeys ha hb h

theorem perm_iff_eq_of_keys {V : Type} : ∀ {d d' : List (String × V)}, Dict.keys d = Dict.keys d' → (Dict.keys d).Nodup →
    (d.Perm d' ↔ d = d')
  | [], [], _, _ => by simp
  | [], _ :: _, h, _ => by cases h
  | _ :: _, [], h, _ => by cases h
  | (k, v) :: d, (k', v') :: d', h, hn => by
    simp only [Dict.keys, List.map_cons, List.cons.injEq, List.nodup_cons] at h hn
    obtain ⟨rfl, h⟩ := h
    refine ⟨fun hp => ?_, fun e => by rw [e]⟩
    have hm : (k, v) ∈ (k, v') :: d' := hp.subset List.mem_cons_self
    rcases List.mem_cons.mp hm with e | hm
    · cases e
      rw [(perm_iff_eq_of_keys h hn.2).mp hp.cons_inv]
    · exact absurd (h ▸ List.mem_map_of_mem (f := Prod.fst) hm) hn.1

/-- Objects with the same keys are equal when their values are. -/
theorem Value.normal_obj_eq_iff {eqv : Bool} {kvs kvs' : List (String × Value)} (hk : Dict.keys kvs = Dict.keys kvs')
    (hn : (Dict.keys kvs).Nodup) : (Value.obj kvs).normal eqv = (Value.obj kvs').normal eqv ↔
      (Dict.values kvs).map (Value.normal eqv) = (Dict.values kvs').map (Value.normal eqv) := by
  have hkeys : ∀ d : List (String × Value), Dict.keys (d.map fun e => (e.1, e.2.normal eqv)) = Dict.keys d := by
    intro d
    rw [Dict.keys, List.map_map]
    rfl
  rw [Value.normal_obj_eq_iff_perm hn, perm_iff_eq_of_keys (by rw [hkeys, hkeys, hk]) (by rwa [hkeys])]
  clear hn hkeys
  induction kvs generalizing kvs' with
  | nil =>
    cases kvs' with
    | nil => simp [Dict.values]
    | cons e kvs' => cases hk
  | cons e kvs ih =>
    cases kvs' with
    | nil => cases hk
    | cons e' kvs' =>
      simp only [Dict.keys, List.map_cons, List.cons.injEq] at hk
      simp only [Dict.values, List.map_cons, List.cons.injEq, Prod.mk.injEq, hk.1, true_and]
      exact and_congr_right fun _ => ih hk.2

end ClearFeature
