/-
What is known of the reader of the project. It keeps to what is relied on in readers (`lawful_reader`): a later pair of
a mapping takes the place of one with an equal key, so no text is the key of two, and bytes are decoded before anything
else.

A document that it finds to be defective has a token, a scalar or a kind of value to blame (`cause_of_reader`). `Cause`
lists these: the tokens are those of `TokenDefect`, and the scalars those of `ScalarDefect`.
-/
import Drumline.Proofs.Except
import Drumline.Proofs.Yaml.Node
import Drumline.Proofs.Yaml.Scalar

namespace Drumline.Yaml

/-! ## Model -/

/-- whether a scalar with a tag is among what a node is made of -/
inductive Node.Holds (tag : Tag) (chars : List Char) : Node → Prop
  | scalar : Holds tag chars (.scalar tag chars)
  /-- the scalar that stands for a mapping -/
  | standIn {pairs : Option (List (Node × Node))} : Holds tag chars (.mapping tag pairs (some chars))
  | item {other : Tag} {items : List Node} {item : Node} (hmem : item ∈ items) (h : item.Holds tag chars) :
    Holds tag chars (.sequence other items)
  | key {other : Tag} {pairs : List (Node × Node)} {standIn : Option (List Char)} {pair : Node × Node}
    (hmem : pair ∈ pairs) (h : pair.1.Holds tag chars) : Holds tag chars (.mapping other (some pairs) standIn)
  | value {other : Tag} {pairs : List (Node × Node)} {standIn : Option (List Char)} {pair : Node × Node}
    (hmem : pair ∈ pairs) (h : pair.2.Holds tag chars) : Holds tag chars (.mapping other (some pairs) standIn)

/-- whether a defect is that of a scalar among what a node is made of -/
def Node.Blames (node : Node) (cause : Defect) : Prop :=
  ∃ tag chars, node.Holds tag chars ∧ ScalarDefect chars tag cause

/-- the defects of documents, each with what it comes of -/
inductive Cause (source : List Char) : Defect → Prop
  | token {cause : Defect} (h : TokenDefect (unifyBreaks source) cause) : Cause source cause
  | scalar {root : Node} {cause : Defect} (hroot : readNode source = .ok (some root)) (h : root.Blames cause) :
    Cause source cause
  /-- a value of a kind that is not read here -/
  | foreign {root : Node} (hroot : readNode source = .ok (some root)) (h : root.isForeign = true) :
    Cause source .unsupported

/-! ## Laws -/

theorem sameKey_text (name : String) : (Value.text name).sameKey (.text name) = true := by
  simp [Value.sameKey, Value.asNumber?, Value.number?]

theorem distinct_insertPair {pairs : List (Value × Value)} (h : Distinct pairs) (key value : Value) :
    Distinct (insertPair pairs key value) := by
  unfold insertPair
  split
  · exact List.pairwise_map.2 h
  · rename_i hnone
    refine List.pairwise_append.2 ⟨h, List.pairwise_singleton _ _, ?_⟩
    intro pair hpair other hother name hfirst hsecond
    obtain rfl := List.mem_singleton.1 hother
    simp only [List.any_eq_true, not_exists, not_and] at hnone
    have hsame := hnone pair hpair
    rw [hfirst, show key = _ from hsecond, sameKey_text] at hsame
    exact hsame rfl

theorem distinct_foldl_insertPair (pairs : List (Value × Value)) {all : List (Value × Value)} (h : Distinct all) :
    Distinct (pairs.foldl (fun all (key, value) => insertPair all key value) all) := by
  induction pairs generalizing all with
  | nil => exact h
  | cons pair pairs ih => exact ih (distinct_insertPair h pair.1 pair.2)

theorem scalarValue_ne_mapping {tag : Tag} {text : List Char} {pairs : List (Value × Value)} :
    scalarValue tag text ≠ .ok (.mapping pairs) := by
  intro h
  unfold scalarValue at h
  split at h
  · cases h
  · obtain ⟨_, -, h⟩ := map_eq_ok.1 h
    cases h
  · obtain ⟨_, -, h⟩ := map_eq_ok.1 h
    cases h
  · obtain ⟨_, -, h⟩ := map_eq_ok.1 h
    cases h
  · cases h
  · cases h
  · cases h

theorem distinct_of_valueAt {distance : Nat} {node : Node} {pairs : List (Value × Value)}
    (h : node.valueAt distance = .ok (.mapping pairs)) : Distinct pairs := by
  unfold Node.valueAt at h
  split at h
  · cases h
  · cases h
  · exact (scalarValue_ne_mapping (mapError_eq_ok.1 h)).elim
  · obtain ⟨_, -, h⟩ := map_eq_ok.1 h
    cases h
  · cases h
  · cases h
  · obtain ⟨read, -, h⟩ := map_eq_ok.1 h
    cases h
    exact distinct_foldl_insertPair read List.Pairwise.nil
  · cases h
  · cases h
  · cases h
  · exact (scalarValue_ne_mapping (mapError_eq_ok.1 h)).elim

/-- no text is the key of two pairs of a document -/
theorem distinct_of_readDocument {text : List Char} {pairs : List (Value × Value)}
    (h : readDocument text = .ok (.mapping pairs)) : Distinct pairs := by
  obtain ⟨root, -, h⟩ := bind_eq_ok.1 h
  cases root with
  | none => cases h
  | some root =>
    simp only at h
    split at h
    · cases h
    · exact distinct_of_valueAt (mapError_eq_ok.1 h)

theorem lawful_reader : reader.Lawful where
  distinct h := by
    obtain ⟨_, -, h⟩ := bind_eq_ok.1 h
    exact distinct_of_readDocument (mapError_eq_ok.1 h)
  decodes h := by
    obtain ⟨text, hdecode, -⟩ := bind_eq_ok.1 h
    exact ⟨text, mapError_eq_ok.1 (mapError_eq_ok.1 hdecode)⟩
  undecodable h := by
    rcases bind_eq_error.1 h with hdecode | ⟨_, -, hread⟩
    · obtain ⟨_, hdecode, -⟩ := mapError_eq_error.1 hdecode
      obtain ⟨fault, hfault, -⟩ := mapError_eq_error.1 hdecode
      exact ⟨fault, hfault⟩
    · obtain ⟨_, -, hrefusal⟩ := mapError_eq_error.1 hread
      cases hrefusal

/-! ## Defects -/

theorem both_eq_error {α β : Type} {x : Except Fault α} {y : Except Fault β} {e : Fault} (h : both x y = .error e) :
    x = .error e ∨ y = .error e := by
  unfold both at h
  split at h
  · cases h
  · cases h
    exact .inr rfl
  · cases h
    exact .inl rfl
  · split_ifs at h
    · cases h
      exact .inr rfl
    · cases h
      exact .inl rfl

theorem scalarDefect_of_mapError {tag : Tag} {chars : List Char} {distance fault : Nat} {cause : Defect}
    (h : (scalarValue tag chars).mapError (fun e => (distance, e)) = .error (fault, .defective cause)) :
    ScalarDefect chars tag cause := by
  obtain ⟨e, he, hfault⟩ := mapError_eq_error.1 h
  cases hfault
  exact (meets_scalarValue tag chars).of_defective he

mutual

theorem Node.blames_of_valueAt {distance fault : Nat} {cause : Defect} (node : Node)
    (h : node.valueAt distance = .error (fault, .defective cause)) : node.Blames cause := by
  unfold Node.valueAt at h
  split at h
  · cases h
  · cases h
  · exact ⟨_, _, .scalar, scalarDefect_of_mapError h⟩
  · obtain ⟨item, hmem, tag, chars, hholds, hdefect⟩ := blames_of_itemValues _ (map_eq_error.1 h)
    exact ⟨tag, chars, .item hmem hholds, hdefect⟩
  · cases h
  · cases h
  · obtain ⟨pair, hmem, ⟨tag, chars, hholds, hdefect⟩ | ⟨tag, chars, hholds, hdefect⟩⟩ :=
      blames_of_pairValues _ (map_eq_error.1 h)
    · exact ⟨tag, chars, .key hmem hholds, hdefect⟩
    · exact ⟨tag, chars, .value hmem hholds, hdefect⟩
  · cases h
  · cases h
  · cases h
  · exact ⟨_, _, .standIn, scalarDefect_of_mapError h⟩

theorem blames_of_itemValues {distance fault : Nat} {cause : Defect} (items : List Node)
    (h : itemValues distance items = .error (fault, .defective cause)) : ∃ item ∈ items, item.Blames cause := by
  match items with
  | [] => cases h
  | item :: items =>
    rcases both_eq_error (map_eq_error.1 h) with h | h
    · exact ⟨item, List.mem_cons_self, item.blames_of_valueAt h⟩
    · obtain ⟨other, hmem, hblames⟩ := blames_of_itemValues items h
      exact ⟨other, List.mem_cons_of_mem _ hmem, hblames⟩

theorem blames_of_pairValues {distance fault : Nat} {cause : Defect} (pairs : List (Node × Node))
    (h : pairValues distance pairs = .error (fault, .defective cause)) :
    ∃ pair ∈ pairs, pair.1.Blames cause ∨ pair.2.Blames cause := by
  match pairs with
  | [] => cases h
  | (key, value) :: pairs =>
    rcases both_eq_error (map_eq_error.1 h) with h | h
    · refine ⟨(key, value), List.mem_cons_self, ?_⟩
      rcases both_eq_error h with h | h
      · split_ifs at h
        · cases h
        · exact .inl (key.blames_of_valueAt h)
      · exact .inr (value.blames_of_valueAt h)
    · obtain ⟨other, hmem, hblames⟩ := blames_of_pairValues pairs h
      exact ⟨other, List.mem_cons_of_mem _ hmem, hblames⟩

end

theorem cause_of_readDocument {source : List Char} {cause : Defect}
    (h : readDocument source = .error (.defective cause)) : Cause source cause := by
  rcases bind_eq_error.1 h with hroot | ⟨root, hroot, h⟩
  · exact .token (tokenDefect_of_readNode hroot)
  cases root with
  | none => cases h
  | some root =>
    simp only at h
    split at h
    · rename_i hforeign
      cases h
      exact .foreign hroot hforeign
    · obtain ⟨⟨fault, e⟩, hvalue, he⟩ := mapError_eq_error.1 h
      cases he
      exact .scalar hroot (root.blames_of_valueAt hvalue)

/-- an escape that is one code point too far -/
example : (readDocument "bpm: \"\\U00110000\"\n".toList).map (fun _ => ()) =
    .error (.defective (.noCodePoint 0x110000)) := by
  decide +kernel

/-- **What defects come of.** Bytes in which the reader finds a defect are a text, and something in it is to blame. -/
theorem cause_of_reader {raw : List UInt8} {cause : Defect}
    (h : reader raw = .error (.document (.defective cause))) :
    ∃ source, Text.decode raw = .ok source ∧ Cause source cause := by
  rcases bind_eq_error.1 h with hdecode | ⟨source, hdecode, hread⟩
  · obtain ⟨_, -, hrefusal⟩ := mapError_eq_error.1 hdecode
    cases hrefusal
  · obtain ⟨e, hread, hrefusal⟩ := mapError_eq_error.1 hread
    cases hrefusal
    exact ⟨source, mapError_eq_ok.1 (mapError_eq_ok.1 hdecode), cause_of_readDocument hread⟩

end Drumline.Yaml
