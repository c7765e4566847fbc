import Costing.Output.Dependency
import Costing.Proofs.Formula.Lexing
import Costing.Proofs.Formula.Scope
import Mathlib.Data.List.Nodup

/-! # The names of fields and outputs

Identifiers hold no point, so the key of an output, which does, is told apart from every name
(`VariableName.plain`, `Output.splitName_key`).  Case aside, the names of the fields and outputs
of a module are distinct; `outputIndex?_eq_some_iff` is what this means for the search of an
output by its name. -/

namespace Costing

open Formula (splitName splitName_of_plain)

/-! ## Identifiers -/

theorem toNat_lt_of_isNameChar {c : Char} (char : isNameChar c = true) : c.toNat < 0x80 := by
  have code := Formula.toNat_of_isNameChar char
  omega

/-- What holds of every code point below 128 holds of every ASCII character. -/
theorem forall_ascii {P : Char → Prop} (all : ∀ k < 0x80, P (Char.ofNat k)) {c : Char}
    (ascii : c.toNat < 0x80) : P c := by
  have same : Char.ofNat c.toNat = c := Char.ofNat_toNat c
  exact same ▸ all c.toNat ascii

theorem isNameChar_toLower {c : Char} (char : isNameChar c = true) :
    isNameChar c.toLower = true :=
  forall_ascii (P := fun c => isNameChar c = true → isNameChar c.toLower = true)
    (by decide +kernel) (toNat_lt_of_isNameChar char) char

/-- The characters of a text in ASCII lower case. -/
theorem toList_toLower (s : String) : s.toLower.toList = s.toList.map Char.toLower := by
  unfold String.toLower
  exact String.toList_map

/-- On ASCII characters the lower case is the one of the standard library. -/
theorem lower_of_ascii {s : String} (ascii : ∀ c ∈ s.toList, c.toNat < 0x80) :
    Text.lower s = s.toLower := by
  have small : ∀ before cs, (∀ c ∈ cs, c.toNat < 0x80) →
      Text.lowerChars before cs = cs.map Char.toLower := by
    intro before cs
    induction cs generalizing before with
    | nil => intro _; rfl
    | cons c cs ih =>
      intro all
      have first : Text.smallForm before c cs = [c.toLower] := if_pos (all c (.head _))
      rw [Text.lowerChars, first, ih _ fun d member => all d (.tail _ member)]
      rfl
  apply String.toList_inj.mp
  rw [Text.lower, small [] _ ascii, toList_toLower, String.toList_ofList]

/-- A point stays in the lower case of a text. -/
theorem point_mem_lower {s : String} (point : '.' ∈ s.toList) : '.' ∈ (Text.lower s).toList := by
  have kept : ∀ before cs, '.' ∈ cs → '.' ∈ Text.lowerChars before cs := by
    intro before cs
    induction cs generalizing before with
    | nil => nofun
    | cons c cs ih =>
      intro member
      rw [Text.lowerChars, List.mem_append]
      obtain rfl | later := List.mem_cons.mp member
      · exact .inl (List.mem_singleton.mpr rfl)
      · exact .inr (ih _ later)
  rw [Text.lower, String.toList_ofList]
  exact kept [] _ point

theorem hasOutputPrefix_of_plain {name : String} (plain : '.' ∉ name.toList) :
    hasOutputPrefix name = false := by
  rw [← Bool.not_eq_true, hasOutputPrefix, List.isPrefixOf_iff_prefix]
  exact fun here => plain (here.subset (by decide))

theorem dropOutputPrefix_of_plain {name : String} (plain : '.' ∉ name.toList) :
    dropOutputPrefix name = name := by
  simp [dropOutputPrefix, hasOutputPrefix_of_plain plain]

theorem hasOutputPrefix_append (s : String) : hasOutputPrefix (outputPrefix ++ s) = true := by
  rw [hasOutputPrefix, List.isPrefixOf_iff_prefix, String.toList_append]
  exact List.prefix_append ..

theorem dropOutputPrefix_append (s : String) : dropOutputPrefix (outputPrefix ++ s) = s := by
  rw [dropOutputPrefix, if_pos (hasOutputPrefix_append s), String.toList_append]
  exact String.ofList_toList

theorem base_of_hasOutputPrefix {name : String} (here : hasOutputPrefix name = true) :
    (splitName name).1 = "out" := by
  rw [hasOutputPrefix, List.isPrefixOf_iff_prefix] at here
  obtain ⟨rest, whole⟩ := here
  rw [splitName, ← whole]
  rfl

namespace VariableName

theorem isNameChar_of_mem {n : VariableName} {c : Char} (member : c ∈ n.text.toList) :
    isNameChar c = true := by
  have valid := n.valid
  unfold isIdentifier at valid
  split at valid
  · next empty => rw [empty] at member; cases member
  · next first rest chars =>
    rw [chars] at member
    simp only [Bool.and_eq_true, List.all_eq_true] at valid
    obtain rfl | later := List.mem_cons.mp member
    · exact Formula.isNameChar_of_isNameStart valid.1
    · exact valid.2 c later

theorem plain (n : VariableName) : '.' ∉ n.text.toList := fun member =>
  absurd (isNameChar_of_mem member) (by decide)

theorem lower_text (n : VariableName) : Text.lower n.text = n.folded :=
  lower_of_ascii fun _ member => toNat_lt_of_isNameChar (isNameChar_of_mem member)

theorem plain_folded (n : VariableName) : '.' ∉ n.folded.toList := by
  intro member
  rw [folded, toList_toLower, List.mem_map] at member
  obtain ⟨c, inText, point⟩ := member
  have char := isNameChar_toLower (isNameChar_of_mem inText)
  rw [point] at char
  exact absurd char (by decide)

/-- Names that differ when the case is ignored differ as they are written. -/
theorem nodup_texts {α : Type} {name : α → VariableName} {items : List α}
    (distinct : (items.map fun a => (name a).folded).Nodup) :
    (items.map fun a => (name a).text).Nodup := by
  refine List.Nodup.of_map String.toLower ?_
  rw [List.map_map]
  exact distinct

end VariableName

/-! ## Keys of outputs -/

namespace Output

theorem toList_key (o : Output) :
    o.key.toList = 'o' :: 'u' :: 't' :: '.' :: o.name.text.toList := by
  rw [key, String.toList_append]
  rfl

theorem hasOutputPrefix_key (o : Output) : hasOutputPrefix o.key = true :=
  hasOutputPrefix_append _

theorem dropOutputPrefix_key (o : Output) : dropOutputPrefix o.key = o.name.text :=
  dropOutputPrefix_append _

theorem splitName_key (o : Output) : splitName o.key = ("out", some o.name.text) := by
  rw [splitName, toList_key]
  exact congrArg (fun text => ("out", some text)) String.ofList_toList

/-- A key holds a point, and a name does not. -/
theorem key_ne_text (o : Output) (n : VariableName) : o.key ≠ n.text := by
  intro same
  apply n.plain
  rw [← same, toList_key]
  simp

end Output

/-! ## Modules -/

namespace Module

variable {m : Module}

theorem mem_of_field? {name : String} {f : Field}
    (found : m.field? name = some f) : f ∈ m.fields ∧ f.name.text = name :=
  ⟨List.mem_of_find?_eq_some found, by simpa using List.find?_some found⟩

theorem noField_of_field? {name : String} (absent : m.field? name = none) :
    ∀ f ∈ m.fields, f.name.text ≠ name := by
  intro f field
  simpa using List.find?_eq_none.mp absent f field

theorem nodup_fields (m : Module) : (m.fields.map (·.name.folded)).Nodup := by
  have distinct := m.distinct
  rw [declaredNames, List.map_append, List.nodup_append, List.map_map] at distinct
  exact distinct.1

theorem field_unique {f g : Field} (first : f ∈ m.fields) (second : g ∈ m.fields)
    (same : f.name.text = g.name.text) : f = g :=
  Table.eq_of_key m.nodup_fields first second (congrArg String.toLower same)

theorem get?_indexBy_field {f : Field} (field : f ∈ m.fields) :
    (Table.indexBy (·.name.text) m.fields).get? f.name.text = some f := by
  have present : (Table.indexBy (·.name.text) m.fields).contains f.name.text = true :=
    Table.contains_indexBy.mpr (List.mem_map_of_mem field)
  obtain ⟨g, found⟩ := Option.isSome_iff_exists.mp present
  obtain ⟨member, text⟩ := Table.mem_of_get?_indexBy found
  rw [found, field_unique member field text]

theorem nodup_outputs (m : Module) : (m.outputs.map (·.name.folded)).Nodup := by
  have distinct := m.distinct
  rw [declaredNames, List.map_append, List.nodup_append, List.map_map, List.map_map] at distinct
  exact distinct.2.1

theorem field_ne_output {f : Field} {o : Output} (field : f ∈ m.fields) (output : o ∈ m.outputs) :
    f.name.folded ≠ o.name.folded := by
  have distinct := m.distinct
  rw [declaredNames, List.map_append, List.nodup_append] at distinct
  exact distinct.2.2 _ (List.mem_map_of_mem (List.mem_map_of_mem field)) _
    (List.mem_map_of_mem (List.mem_map_of_mem output))

theorem output_unique {o o' : Output} (first : o ∈ m.outputs) (second : o' ∈ m.outputs)
    (same : o.name.folded = o'.name.folded) : o = o' :=
  Table.eq_of_key m.nodup_outputs first second same

theorem index_unique {i j : Fin m.outputs.length}
    (same : (m.outputs.get i).name.folded = (m.outputs.get j).name.folded) : i = j := by
  have apart := List.pairwise_iff_getElem.mp m.nodup_outputs
  apply Fin.ext
  obtain before | same' | behind := Nat.lt_trichotomy i.val j.val
  · exact absurd (by simpa using same) (apart i j (by simp) (by simp) before)
  · exact same'
  · exact absurd (by simpa using same.symm) (apart j i (by simp) (by simp) behind)

theorem output?_eq_some {o : Output} (output : o ∈ m.outputs) {name : String}
    (named : dropOutputPrefix name = o.name.text) : m.output? name = some o := by
  have present : (m.output? name).isSome = true :=
    List.find?_isSome.mpr ⟨o, output, by simp [named]⟩
  obtain ⟨o', found⟩ := Option.isSome_iff_exists.mp present
  have text : o'.name.text = dropOutputPrefix name := by simpa using List.find?_some found
  have same : o'.name.folded = o.name.folded := by
    rw [VariableName.folded, VariableName.folded, text, named]
  rw [found, output_unique (List.mem_of_find?_eq_some found) output same]

/-- The output that a name means is the one that has the name, case aside. -/
theorem outputIndex?_eq_some_iff {name : String} {i : Fin m.outputs.length} :
    outputIndex? m.outputs name = some i ↔
      (m.outputs.get i).name.folded = Text.lower (dropOutputPrefix name) := by
  rw [outputIndex?, List.findFinIdx?_eq_some_iff]
  constructor
  · rintro ⟨found, _⟩
    simpa using found
  · intro named
    refine ⟨by simpa using named, fun j before other => ?_⟩
    have inRange : j < m.outputs.length := Nat.lt_trans before i.isLt
    have same : (m.outputs.get ⟨j, inRange⟩).name.folded =
        (m.outputs.get i).name.folded := by simpa [← named] using other
    exact absurd (congrArg Fin.val (index_unique same)) (Nat.ne_of_lt before)

end Module

end Costing
