/-
Reading the nodes of a document finds no defects of its own: it rejects, or it meets the one that has stopped the
reading of tokens (`tokenDefect_of_readNode`).

`Reading.Keeps` says so of the readers of parts. They call one another, so that the induction is on the depth of calls,
and over all of them at once (`KeepsUpTo`).
-/
import Drumline.Proofs.Yaml.Token
import Drumline.Yaml.Node

namespace Drumline.Yaml

namespace Reading

variable {α β : Type} {count : Nat}

/-- whether reading leaves the error behind the tokens as it is, and finds no defect but that one -/
def Keeps (x : Reading α) : Prop :=
  ∀ r, Meets (fun cause => r.failure = some (.defective cause)) (fun after => after.2.failure = r.failure) (x r)

/-! ## Steps -/

theorem Keeps.bind {x : Reading α} {f : α → Reading β} (hx : Keeps x) (hf : ∀ a, Keeps (f a)) : Keeps (x >>= f) := by
  intro r
  refine (hx r).bind fun ⟨a, after⟩ hafter => ?_
  have h := hf a after
  simp only at hafter
  rw [hafter] at h
  exact h

theorem keeps_pure (a : α) : Keeps (pure a) := fun _ => .ok rfl

theorem keeps_reject : Keeps (throw .malformed : Reading α) := fun _ => .malformed

theorem keeps_get : Keeps (get : Reading NodeReader) := fun _ => .ok rfl

theorem keeps_modify {f : NodeReader → NodeReader} (hf : ∀ r, (f r).failure = r.failure) : Keeps (modify f) :=
  fun r => .ok (hf r)

theorem Keeps.map {x : Reading α} (hx : Keeps x) (f : α → β) : Keeps (f <$> x) := by
  rw [map_eq_pure_bind]
  exact hx.bind fun a => keeps_pure (f a)

theorem keeps_peek : Keeps peek := by
  rintro ⟨tokens, failure, anchors, handles⟩
  cases tokens with
  | cons token tokens => exact .ok rfl
  | nil =>
    cases failure with
    | none => exact .ok rfl
    | some error =>
      cases error with
      | malformed => exact .malformed
      | defective cause => exact .defective rfl

theorem keeps_advance : Keeps advance := keeps_modify fun _ => rfl

theorem keeps_accept (token : Token) : Keeps (accept token) := by
  refine keeps_peek.bind fun next => ?_
  simp only
  split
  · exact keeps_advance.bind fun _ => keeps_pure _
  · exact keeps_pure _

theorem keeps_expect (token : Token) : Keeps (expect token) := by
  refine (keeps_accept token).bind fun found => ?_
  split
  · exact keeps_pure _
  · exact keeps_reject

theorem keeps_nextIn (tokens : List Token) : Keeps (nextIn tokens) :=
  keeps_peek.bind fun _ => keeps_pure _

theorem keeps_tagName (mark : TagMark) : Keeps (tagName mark) := by
  unfold tagName
  split
  · exact keeps_pure _
  · refine keeps_get.bind fun r => ?_
    split
    · exact keeps_pure _
    · exact keeps_reject

theorem keeps_anchor : Keeps anchor? := by
  refine keeps_peek.bind fun next => ?_
  split
  · exact keeps_advance.bind fun _ => keeps_pure _
  · exact keeps_pure _

theorem keeps_tag : Keeps tag? := by
  refine keeps_peek.bind fun next => ?_
  split
  · exact keeps_advance.bind fun _ => keeps_pure _
  · exact keeps_pure _

theorem keeps_properties : Keeps properties := by
  refine keeps_anchor.bind fun anchor => keeps_tag.bind fun tag => ?_
  have hname (anchor : Option (List Char)) : Keeps (do return (anchor, ← tag.mapM tagName)) := by
    cases tag with
    | none => exact keeps_pure _
    | some mark => exact ((keeps_tagName mark).map some).bind fun _ => keeps_pure _
  split
  · exact keeps_anchor.bind hname
  · exact hname _

theorem keeps_openAnchor (name : List Char) : Keeps (openAnchor name) := by
  refine keeps_get.bind fun r => ?_
  split
  · exact keeps_reject
  · exact keeps_modify fun _ => rfl

theorem keeps_closeAnchor (name : List Char) (node : Node) : Keeps (closeAnchor name node) := keeps_modify fun _ => rfl

theorem keeps_aliased (name : List Char) : Keeps (aliased name) := by
  refine keeps_get.bind fun r => ?_
  split
  · exact keeps_pure _
  · exact keeps_pure _
  · exact keeps_reject

/-! ## Parts of a document -/

/-- whether the parts of a document that are read with some depth of calls are read as they should be -/
structure KeepsUpTo (count : Nat) : Prop where
  node : ∀ inBlock behindKey, Keeps (node count inBlock behindKey)
  content : ∀ inBlock behindKey tag hasProperties, Keeps (content count inBlock behindKey tag hasProperties)
  blockItems : ∀ indented, Keeps (blockItems count indented)
  blockPairs : Keeps (blockPairs count)
  flowPair : ∀ close, Keeps (flowPair count close)
  flowItems : ∀ first, Keeps (flowItems count first)
  flowPairs : ∀ first, Keeps (flowPairs count first)

theorem KeepsUpTo.zero : KeepsUpTo 0 where
  node _ _ := keeps_reject
  content _ _ _ _ := keeps_reject
  blockItems _ := keeps_reject
  blockPairs := keeps_reject
  flowPair _ := keeps_reject
  flowItems _ := keeps_reject
  flowPairs _ := keeps_reject

theorem keeps_node (h : KeepsUpTo count) (inBlock behindKey : Bool) : Keeps (node (count + 1) inBlock behindKey) := by
  refine keeps_peek.bind fun next => ?_
  split
  · exact keeps_advance.bind fun _ => keeps_aliased _
  · refine keeps_properties.bind fun ⟨anchor, tag⟩ => keeps_peek.bind fun _ => ?_
    have hcontent := h.content inBlock behindKey tag (anchor.isSome || tag.isSome)
    cases anchor with
    | none => exact hcontent.bind fun node => keeps_pure node
    | some name =>
      refine (keeps_openAnchor name).bind fun _ => hcontent.bind fun node => ?_
      exact (keeps_closeAnchor name node).bind fun _ => keeps_pure node

theorem keeps_content (h : KeepsUpTo count) (inBlock behindKey : Bool) (tag : Option (List Char))
    (hasProperties : Bool) : Keeps (content (count + 1) inBlock behindKey tag hasProperties) := by
  refine keeps_peek.bind fun next => ?_
  split
  · exact keeps_advance.bind fun _ => keeps_pure _
  · exact keeps_advance.bind fun _ => (h.flowItems true).bind fun _ => keeps_pure _
  · exact keeps_advance.bind fun _ => (h.flowPairs true).bind fun _ => keeps_pure _
  · split
    · exact keeps_advance.bind fun _ => (h.blockItems true).bind fun _ => keeps_pure _
    · exact keeps_reject
  · split
    · exact keeps_advance.bind fun _ => h.blockPairs.bind fun _ => keeps_pure _
    · exact keeps_reject
  · split
    · exact (h.blockItems false).bind fun _ => keeps_pure _
    · split
      · exact keeps_pure _
      · exact keeps_reject

theorem keeps_blockItems (h : KeepsUpTo count) (indented : Bool) : Keeps (blockItems (count + 1) indented) := by
  refine (keeps_accept _).bind fun found => ?_
  split
  · refine (keeps_nextIn _).bind fun isEmpty => ?_
    split
    · exact (keeps_pure _).bind fun _ => (h.blockItems indented).bind fun _ => keeps_pure _
    · exact (h.node true false).bind fun _ => (h.blockItems indented).bind fun _ => keeps_pure _
  · split
    · exact (keeps_expect _).bind fun _ => keeps_pure _
    · exact keeps_pure _

/-- a part of a pair is left out before some tokens, and otherwise read -/
theorem keeps_part (h : KeepsUpTo count) (ends : List Token) (inBlock behindKey : Bool) {next : Node → Reading α}
    (hnext : ∀ part, Keeps (next part)) :
    Keeps (do
      if ← nextIn ends then
        let part ← pure Node.empty
        next part
      else
        let part ← node count inBlock behindKey
        next part) := by
  refine (keeps_nextIn ends).bind fun left => ?_
  split
  · exact (keeps_pure _).bind hnext
  · exact (h.node inBlock behindKey).bind hnext

theorem keeps_blockPairs (h : KeepsUpTo count) : Keeps (blockPairs (count + 1)) := by
  refine (keeps_accept _).bind fun found => ?_
  split
  · refine keeps_part h _ _ _ fun key => (keeps_accept _).bind fun marked => ?_
    have hrest (value : Node) : Keeps (do return (key, value) :: (← Reading.blockPairs count)) :=
      h.blockPairs.bind fun _ => keeps_pure _
    split
    · exact keeps_part h _ _ _ hrest
    · exact (keeps_pure _).bind hrest
  · exact (keeps_expect _).bind fun _ => keeps_pure _

theorem keeps_flowPair (h : KeepsUpTo count) (close : Token) : Keeps (flowPair (count + 1) close) := by
  refine keeps_part h _ _ _ fun key => (keeps_accept _).bind fun marked => ?_
  split
  · exact keeps_part h _ _ _ fun value => keeps_pure (key, value)
  · exact (keeps_pure _).bind fun value => keeps_pure (key, value)

/-- what stands in brackets is read one after the other, a comma in front of each but the first -/
theorem keeps_commas {close : Token} {first : Bool} {rest : Reading (List β)} (hrest : Keeps rest) :
    Keeps (do
      if ← accept close then return []
      unless first do expect .flowEntry
      rest) := by
  refine (keeps_accept _).bind fun found => ?_
  split
  · exact keeps_pure _
  · dsimp only
    split
    · exact hrest
    · exact (keeps_expect _).bind fun _ => hrest

/-- the items and the pairs in brackets differ in what becomes of a pair and of a node -/
theorem keeps_flow {close : Token} {first : Bool} {pair : Reading (Node × Node)} {node : Reading Node}
    {rest : Reading (List β)} (ofPair : Node × Node → β) (ofNode : Node → β) (hpair : Keeps pair) (hnode : Keeps node)
    (hrest : Keeps rest) :
    Keeps (do
      if ← accept close then return []
      unless first do expect .flowEntry
      if ← accept .key then
        let pair ← pair
        return ofPair pair :: (← rest)
      if ← accept close then return []
      let node ← node
      return ofNode node :: (← rest)) := by
  refine keeps_commas ((keeps_accept _).bind fun marked => ?_)
  split
  · exact hpair.bind fun pair => hrest.bind fun _ => keeps_pure _
  · refine (keeps_accept _).bind fun closed => ?_
    split
    · exact keeps_pure _
    · exact hnode.bind fun node => hrest.bind fun _ => keeps_pure _

theorem keeps_flowItems (h : KeepsUpTo count) (first : Bool) : Keeps (flowItems (count + 1) first) :=
  keeps_flow (fun pair => Node.ofPairs .mapping [pair]) (fun item : Node => item) (h.flowPair _) (h.node false false)
    (h.flowItems false)

theorem keeps_flowPairs (h : KeepsUpTo count) (first : Bool) : Keeps (flowPairs (count + 1) first) :=
  keeps_flow (fun pair => pair) (fun key => (key, Node.empty)) (h.flowPair _) (h.node false false) (h.flowPairs false)

/-- **Nodes.** By induction on the depth of calls. -/
theorem keepsUpTo (count : Nat) : KeepsUpTo count := by
  induction count with
  | zero => exact .zero
  | succ count ih =>
    exact ⟨keeps_node ih, keeps_content ih, keeps_blockItems ih, keeps_blockPairs ih, keeps_flowPair ih,
      keeps_flowItems ih, keeps_flowPairs ih⟩

/-! ## Documents -/

theorem keeps_directives (versions : Nat) (tokens : List Token) : Keeps (directives versions tokens) := by
  induction tokens generalizing versions with
  | nil => exact keeps_pure ()
  | cons token tokens ih =>
    unfold directives
    split
    · rename_i content rest hcons
      obtain ⟨-, rfl⟩ := List.cons.inj hcons
      refine (keeps_modify (by intro r; rfl)).bind fun _ => ?_
      split
      · split
        · exact keeps_reject
        · exact ih _
      · refine keeps_get.bind fun r => ?_
        dsimp only
        split
        · exact keeps_reject
        · exact (keeps_modify (by intro r; rfl)).bind fun _ => ih _
      · exact ih _
    · exact keeps_pure ()

theorem keeps_ending : Keeps ending := by
  refine keeps_get.bind fun r => (keeps_modify (by intro r; rfl)).bind fun _ => keeps_peek.bind fun next => ?_
  split
  · exact (keeps_directives _ _).bind fun _ => (keeps_peek.map _).bind fun _ => keeps_reject
  · exact keeps_pure ()

theorem keeps_document : Keeps document := by
  refine keeps_get.bind fun r => keeps_peek.bind fun next => ?_
  have hfinish (root : Option Node) : Keeps (do
      ending
      return root) := keeps_ending.bind fun _ => keeps_pure root
  have hnode (count : Nat) : Keeps (some <$> node count true false) := ((keepsUpTo count).node true false).map some
  split
  case h_1 => exact (keeps_pure _).bind hfinish
  case h_2 | h_3 =>
    refine (keeps_directives _ _).bind fun _ => (keeps_expect _).bind fun _ => ?_
    refine (keeps_modify (by intro r; rfl)).bind fun _ => keeps_peek.bind fun next => ?_
    split <;> first
      | exact (keeps_pure _).bind hfinish
      | exact (hnode _).bind hfinish
  case h_4 => exact (keeps_modify (by intro r; rfl)).bind fun _ => (hnode _).bind hfinish

end Reading

/-- a defect that reading the root of a text finds is one of its tokens -/
theorem tokenDefect_of_readNode {source : List Char} {cause : Defect}
    (h : readNode source = .error (.defective cause)) : TokenDefect (unifyBreaks source) cause := by
  have hrun := Reading.keeps_document
    { tokens := (tokensOf source).front, failure := (tokensOf source).failure, handles := [] }
  have hroot : Meets _ (fun _ => True) (readNode source) := hrun.map fun _ _ => trivial
  exact tokenDefect_of_failure (hroot.of_defective h)

end Drumline.Yaml
