/-
Which defects are found while tokens are read: an escape for a code point that there is none of, one for half of a
surrogate pair, and a version number with too many digits (`TokenDefect`). Whatever else stops the reading of tokens is
rejected.

`Meets` says what the result of a computation is like, and which defects it can find. The lexer never leaves the text
that it starts with, so what holds of one step (`meets_next`) holds of a run (`failure_of_run`).

Main statement: `tokenDefect_of_failure`.
-/
import Drumline.Yaml.Token.Lexer
import Mathlib.Data.List.TakeWhile
import Mathlib.Tactic.SplitIfs

namespace Drumline.Yaml

/-! ## Model -/

/-- an escape for a code point: a backslash, a letter that says how many digits follow, and these -/
inductive Escape : List Char → Nat → Prop
  | mk {letter : Char} {digits : List Char} {values : List Nat}
    (hletter : escapeLengths.lookup letter = some digits.length) (hvalues : digits.mapM hexDigit? = some values) :
    Escape ('\x5C' :: letter :: digits) (valueOfDigits 16 values)

/-- the defects of tokens in a text, each with what it comes of -/
inductive TokenDefect (text : List Char) : Defect → Prop
  /-- an escape beyond the last code point -/
  | beyond {chars : List Char} {code : Nat} (hplace : chars <:+: text) (hescape : Escape chars code)
    (hcode : 0x10FFFF < code) : TokenDefect text (.noCodePoint code)
  /-- an escape for half of a surrogate pair -/
  | surrogate {chars : List Char} {code : Nat} (hplace : chars <:+: text) (hescape : Escape chars code)
    (hleast : 0xD800 ≤ code) (hmost : code ≤ 0xDFFF) : TokenDefect text .unsupported
  /-- a number with too many digits in a line that gives the version -/
  | version {front digits : List Char} (hplace : "%YAML".toList ++ front ++ digits <:+: text)
    (hfront : ∀ c ∈ front, c = ' ' ∨ c = '.' ∨ c.isDigit = true) (hdigits : ∀ c ∈ digits, c.isDigit = true)
    (hlong : maxDigits < digits.length) : TokenDefect text (.badInteger (.tooManyDigits digits.length))

/-- whether a computation gives a result as it should be, rejects what it reads, or finds a defect of a kind -/
inductive Meets {α : Type} (kind : Defect → Prop) (wanted : α → Prop) : Except Error α → Prop
  | ok {a : α} (h : wanted a) : Meets kind wanted (.ok a)
  | malformed : Meets kind wanted (.error .malformed)
  | defective {cause : Defect} (h : kind cause) : Meets kind wanted (.error (.defective cause))

variable {α β : Type} {kind : Defect → Prop} {wanted : α → Prop} {wanted' : β → Prop} {text : List Char}

/-! ## Computations -/

theorem Meets.bind {x : Except Error α} {f : α → Except Error β} (hx : Meets kind wanted x)
    (hf : ∀ a, wanted a → Meets kind wanted' (f a)) : Meets kind wanted' (x >>= f) := by
  cases hx with
  | ok h => exact hf _ h
  | malformed => exact .malformed
  | defective h => exact .defective h

theorem Meets.map {x : Except Error α} {f : α → β} (hx : Meets kind wanted x) (hf : ∀ a, wanted a → wanted' (f a)) :
    Meets kind wanted' (x.map f) := by
  cases hx with
  | ok h => exact .ok (hf _ h)
  | malformed => exact .malformed
  | defective h => exact .defective h

theorem Meets.mono {weaker : α → Prop} {x : Except Error α} (hx : Meets kind wanted x)
    (h : ∀ a, wanted a → weaker a) : Meets kind weaker x := by
  cases hx with
  | ok ha => exact .ok (h _ ha)
  | malformed => exact .malformed
  | defective hcause => exact .defective hcause

theorem Meets.ite {c : Prop} [Decidable c] {x y : Except Error α} (hx : c → Meets kind wanted x)
    (hy : ¬c → Meets kind wanted y) : Meets kind wanted (if c then x else y) := by
  split
  · exact hx ‹_›
  · exact hy ‹_›

theorem Meets.of_ok {x : Except Error α} {a : α} (hx : Meets kind wanted x) (h : x = .ok a) : wanted a := by
  subst h
  cases hx with
  | ok ha => exact ha

theorem Meets.of_defective {x : Except Error α} {cause : Defect} (hx : Meets kind wanted x)
    (h : x = .error (.defective cause)) : kind cause := by
  subst h
  cases hx with
  | defective hcause => exact hcause

/-! ## Words -/

theorem meets_anchorName (rest : List Char) : Meets kind (fun _ => True) (anchorName rest) := by
  unfold anchorName
  simp only
  split
  · exact .malformed
  · exact .ok trivial

theorem meets_tagChars (rest : List Char) : Meets kind (fun _ => True) (tagChars rest) := by
  fun_induction tagChars rest with
  | case1 => exact .ok trivial
  | case5 _ _ _ _ _ _ _ _ ih => exact ih.map fun _ _ => trivial
  | case6 _ _ _ _ ih => exact ih.map fun _ _ => trivial
  | case7 => exact .ok trivial
  | _ => exact .malformed

theorem meets_tagName (rest : List Char) : Meets kind (fun _ => True) (tagName rest) := by
  refine (meets_tagChars rest).bind fun ⟨name, rest⟩ _ => ?_
  simp only
  split
  · exact .malformed
  · exact .ok trivial

theorem meets_tagHandle (rest : List Char) : Meets kind (fun _ => True) (tagHandle rest) := by
  unfold tagHandle
  split
  · split
    · exact .ok trivial
    · split
      · exact .ok trivial
      · exact .malformed
  · exact .malformed

theorem meets_tagMark (rest : List Char) : Meets kind (fun _ => True) (tagMark rest) := by
  unfold tagMark
  extract_lets finish
  have hfinish (mark : TagMark × List Char) : Meets kind (fun _ => True) (finish mark) := by
    show Meets kind _ (if endsItem mark.2 then _ else _)
    split
    · exact .ok trivial
    · exact .malformed
  clear_value finish
  simp only [pure_bind]
  split
  · refine (meets_tagName _).bind fun ⟨name, rest⟩ _ => ?_
    simp only
    split
    · exact hfinish _
    · exact .malformed
  · split_ifs
    · exact hfinish _
    · refine (meets_tagHandle _).bind fun handle _ => ?_
      exact (meets_tagName _).bind fun _ _ => hfinish _
    · exact (meets_tagName _).bind fun _ _ => hfinish _

theorem meets_blockHeader (rest : List Char) : Meets kind (fun _ => True) (blockHeader rest) := by
  unfold blockHeader
  simp only
  split_ifs
  · exact .malformed
  · split
    · exact .malformed
    · exact .ok trivial
  · exact .malformed
  · split
    · exact .malformed
    · exact .ok trivial

theorem meets_block (folded : Bool) (indent : Int) (rest : List Char) :
    Meets kind (fun _ => True) (block folded indent rest) :=
  (meets_blockHeader rest).bind fun _ _ => .ok trivial

/-! ## Quoted scalars -/

/-- whether what follows a state of reading a quoted scalar stands in a text behind what the state remembers -/
def QuoteState.Fits (text : List Char) : QuoteState → List Char → Prop
  | .escape, rest => '\x5C' :: rest <:+ text
  | .hex owed value, rest => ∃ letter front values, '\x5C' :: letter :: (front ++ rest) <:+ text ∧
      escapeLengths.lookup letter = some (front.length + owed) ∧ 0 < owed ∧ front.mapM hexDigit? = some values ∧
      valueOfDigits 16 values = value
  | _, rest => rest <:+ text

theorem QuoteState.Fits.suffix {state : QuoteState} {rest : List Char} (h : state.Fits text rest) : rest <:+ text := by
  cases state with
  | escape => exact (List.suffix_cons _ _).trans h
  | hex =>
    obtain ⟨letter, front, values, hplace, -⟩ := h
    exact (List.suffix_append ('\x5C' :: letter :: front) rest).trans hplace
  | _ => exact h

theorem QuoteState.Fits.tail {state : QuoteState} {c : Char} {rest : List Char} (h : state.Fits text (c :: rest)) :
    rest <:+ text :=
  (List.suffix_cons c rest).trans h.suffix

theorem fits_of_quotedChar {mark c : Char} {next : Option Char} {rest out : List Char} {state : QuoteState}
    (hplace : c :: rest <:+ text) (h : quotedChar mark c next = some (out, state)) : state.Fits text rest := by
  have hrest : rest <:+ text := (List.suffix_cons c rest).trans hplace
  unfold quotedChar at h
  split_ifs at h with hmark hdouble hescape
  · cases h
    exact hrest
  · cases h
    obtain ⟨rfl, -⟩ := hescape
    exact hplace
  · cases h
    exact hrest

/-- behind the letter of an escape there are digits to come -/
theorem fits_of_letter {letter : Char} {length : Nat} {rest : List Char} (hplace : '\x5C' :: letter :: rest <:+ text)
    (hletter : escapeLengths.lookup letter = some length) : (QuoteState.hex length 0).Fits text rest := by
  have hpos : 0 < length := by
    obtain ⟨before, after, hlengths, -⟩ := List.lookup_eq_some_iff.1 hletter
    have hall : ∀ entry ∈ escapeLengths, 0 < entry.2 := by simp [escapeLengths]
    exact hall (letter, length) (by simp [hlengths])
  exact ⟨letter, [], [], hplace, by simpa using hletter, hpos, rfl, rfl⟩

theorem valueOfDigits_append_singleton (values : List Nat) (digit : Nat) :
    valueOfDigits 16 (values ++ [digit]) = valueOfDigits 16 values * 16 + digit := by
  simp [valueOfDigits, Nat.mul_comm]

theorem mapM_hexDigit?_append_singleton {front : List Char} {values : List Nat} {c : Char} {digit : Nat}
    (hfront : front.mapM hexDigit? = some values) (hc : hexDigit? c = some digit) :
    (front ++ [c]).mapM hexDigit? = some (values ++ [digit]) := by
  simp [List.mapM_append, hfront, hc]

/-- a digit of an escape with more to come -/
theorem fits_of_digit {owed value digit : Nat} {c : Char} {rest : List Char}
    (h : (QuoteState.hex owed value).Fits text (c :: rest)) (hdigit : hexDigit? c = some digit) (howed : 1 < owed) :
    (QuoteState.hex (owed - 1) (value * 16 + digit)).Fits text rest := by
  obtain ⟨letter, front, values, hplace, hletter, -, hfront, rfl⟩ := h
  have hlength : front.length + owed = (front ++ [c]).length + (owed - 1) := by
    rw [List.length_append, List.length_singleton]
    omega
  exact ⟨letter, front ++ [c], values ++ [digit], by simpa using hplace, by rw [hletter, hlength], by omega,
    mapM_hexDigit?_append_singleton hfront hdigit, valueOfDigits_append_singleton values digit⟩

/-- the last digit of an escape -/
theorem exists_escape {owed value digit : Nat} {c : Char} {rest : List Char}
    (h : (QuoteState.hex owed value).Fits text (c :: rest)) (hdigit : hexDigit? c = some digit) (howed : ¬1 < owed) :
    ∃ chars, chars <:+: text ∧ Escape chars (value * 16 + digit) := by
  obtain ⟨letter, front, values, ⟨before, rfl⟩, hletter, hpos, hfront, rfl⟩ := h
  have hlength : front.length + owed = (front ++ [c]).length := by
    rw [List.length_append, List.length_singleton]
    omega
  refine ⟨'\x5C' :: letter :: (front ++ [c]), ⟨before, rest, by simp⟩, ?_⟩
  rw [← valueOfDigits_append_singleton]
  exact .mk (by rw [hletter, hlength]) (mapM_hexDigit?_append_singleton hfront hdigit)

/-- **Quoted scalars.** By induction on the characters: each state remembers where its escape has started. -/
theorem meets_quotedFrom {mark : Char} {state : QuoteState} {rest : List Char} (h : state.Fits text rest) :
    Meets (TokenDefect text) (fun _ => True) (quotedFrom mark state rest) := by
  fun_induction quotedFrom mark state rest with
  | case5 | case10 => exact .ok trivial
  | case2 _ _ _ _ ih | case4 _ _ _ _ _ _ ih | case7 _ _ _ _ _ ih | case9 _ _ _ _ _ _ _ ih | case14 _ _ _ _ ih =>
    exact ih h.tail
  | case12 _ _ ih | case15 _ _ _ _ _ ih | case22 _ _ _ _ _ _ _ _ _ _ ih =>
    exact (ih h.tail).bind fun _ _ => .ok trivial
  | case6 _ _ _ _ _ _ _ hchar ih | case11 _ _ _ _ _ _ _ _ _ hchar ih =>
    exact (ih (fits_of_quotedChar h hchar)).bind fun _ _ => .ok trivial
  | case16 _ _ _ _ hlength _ ih => exact ih (fits_of_letter h hlength)
  | case19 _ _ _ _ _ hdigit _ howed ih => exact ih (fits_of_digit h hdigit howed)
  | case20 _ _ _ _ _ hdigit _ howed hcode =>
    obtain ⟨chars, hplace, hescape⟩ := exists_escape h hdigit howed
    exact .defective (.beyond hplace hescape hcode)
  | case21 _ _ _ _ _ hdigit _ howed hcode hvalid =>
    obtain ⟨chars, hplace, hescape⟩ := exists_escape h hdigit howed
    simp only [Bool.not_eq_true', decide_eq_false_iff_not, Nat.isValidChar] at hvalid
    exact .defective (.surrogate hplace hescape (by omega) (by omega))
  | _ => exact .malformed

theorem meets_quoted {mark : Char} {rest : List Char} (h : rest <:+ text) :
    Meets (TokenDefect text) (fun _ => True) (quoted mark rest) :=
  meets_quotedFrom h

/-! ## Directives -/

/-- whether only digits, points and spaces stand between the name of the version's line and the characters -/
def InVersion (text rest : List Char) : Prop :=
  ∃ front, "%YAML".toList ++ front ++ rest <:+ text ∧ ∀ c ∈ front, c = ' ' ∨ c = '.' ∨ c.isDigit = true

theorem InVersion.of_append {front rest : List Char} (h : InVersion text (front ++ rest))
    (hfront : ∀ c ∈ front, c = ' ' ∨ c = '.' ∨ c.isDigit = true) : InVersion text rest := by
  obtain ⟨before, hplace, hbefore⟩ := h
  refine ⟨before ++ front, by simpa using hplace, fun c hc => ?_⟩
  rcases List.mem_append.1 hc with hc | hc
  · exact hbefore c hc
  · exact hfront c hc

/-- where a line gives a version, its number does so behind spaces -/
theorem inVersion_of_name {rest : List Char} (h : '%' :: rest <:+ text)
    (hname : rest.takeWhile isNameChar = "YAML".toList) :
    InVersion text ((rest.dropWhile isNameChar).dropWhile (· == ' ')) := by
  have hrest : rest = "YAML".toList ++ rest.dropWhile isNameChar := by
    rw [← hname, List.takeWhile_append_dropWhile]
  have hline : InVersion text (rest.dropWhile isNameChar) := by
    refine ⟨[], ?_, by simp⟩
    rw [hrest] at h
    simpa using h
  rw [← List.takeWhile_append_dropWhile (p := (· == ' ')) (l := rest.dropWhile isNameChar)] at hline
  exact hline.of_append fun c hc => .inl (by simpa using List.mem_takeWhile_imp hc)

theorem meets_directiveNumber {rest : List Char} (h : InVersion text rest) :
    Meets (TokenDefect text) (fun number => InVersion text number.2) (directiveNumber rest) := by
  have hdigits : ∀ c ∈ rest.takeWhile Char.isDigit, c.isDigit = true := fun c hc => List.mem_takeWhile_imp hc
  have hsplit : rest.takeWhile Char.isDigit ++ rest.dropWhile Char.isDigit = rest := List.takeWhile_append_dropWhile
  unfold directiveNumber
  simp only
  split_ifs with hnone hlong
  · exact .malformed
  · obtain ⟨front, ⟨before, rfl⟩, hfront⟩ := h
    refine .defective (.version ⟨before, rest.dropWhile Char.isDigit, ?_⟩ hfront hdigits hlong)
    simp only [List.append_assoc, hsplit]
  · rw [← hsplit] at h
    exact .ok (h.of_append fun c hc => .inr (.inr (hdigits c hc)))

theorem meets_directive {rest : List Char} (h : '%' :: rest <:+ text) :
    Meets (TokenDefect text) (fun _ => True) (directive rest) := by
  unfold directive
  extract_lets name behind argument finish start
  have hfinish (content : Directive × List Char) : Meets (TokenDefect text) (fun _ => True) (finish content) := by
    dsimp only [finish]
    split
    · exact .malformed
    · exact .ok trivial
  clear_value finish
  have hstart : Meets (TokenDefect text) (fun _ => True) (start ()) := by
    show Meets _ _ (if name = _ then _ else _)
    simp only [pure_bind]
    split_ifs with hversion
    · refine (meets_directiveNumber (inVersion_of_name h hversion)).bind fun number hnumber => ?_
      obtain ⟨major, rest⟩ := number
      simp only
      split
      · have hpoint : InVersion text (['.'] ++ _) := hnumber
        refine (meets_directiveNumber (hpoint.of_append (by simp))).bind fun _ _ => ?_
        split
        · exact hfinish _
        · exact .malformed
      · exact .malformed
    · refine (meets_tagHandle _).bind fun handle _ => ?_
      obtain ⟨handle, rest⟩ := handle
      simp only
      split
      · exact .malformed
      · refine (meets_tagName _).bind fun _ _ => ?_
        split
        · exact hfinish _
        · exact .malformed
    · exact hfinish _
  split
  · exact .malformed
  · exact hstart

/-! ## Cursors -/

theorem Cursor.suffix_next (c : Cursor) : c.next.rest <:+ c.rest := by
  unfold next
  split
  · exact List.suffix_refl _
  · rename_i a rest hrest
    have hsuffix : rest <:+ c.rest := hrest ▸ List.suffix_cons a rest
    split_ifs <;> exact hsuffix

theorem Cursor.suffix_skip (c : Cursor) (count : Nat) : (c.skip count).rest <:+ c.rest := by
  induction count with
  | zero => exact List.suffix_refl _
  | succ count ih => exact (suffix_next _).trans ih

theorem Cursor.suffix_upTo (c : Cursor) (rest : List Char) : (c.upTo rest).rest <:+ c.rest :=
  c.suffix_skip _

namespace Lexer

variable {x : Lexer}

theorem cursor_go (column indent : Int) (outer : List Int) (x : Lexer) :
    (closeTo.go column indent outer x).cursor = x.cursor := by
  induction outer generalizing indent x with
  | nil => rfl
  | cons next outer ih =>
    unfold closeTo.go
    split
    · exact ih next (x.emit .blockEnd)
    · rfl

theorem cursor_closeTo (column : Int) (x : Lexer) : (x.closeTo column).cursor = x.cursor := by
  unfold closeTo
  split
  · rfl
  · exact cursor_go column x.indent x.outer x

theorem cursor_openAt (x : Lexer) (column position : Nat) (start : Token) :
    (x.openAt column position start).cursor = x.cursor := by
  unfold openAt
  split <;> rfl

theorem meets_dropCandidate (x : Lexer) : Meets kind (fun y => y.cursor = x.cursor) x.dropCandidate := by
  unfold dropCandidate
  split
  · exact .malformed
  · exact .ok rfl

theorem meets_addCandidate (x : Lexer) : Meets kind (fun y => y.cursor = x.cursor) x.addCandidate := by
  unfold addCandidate
  split
  · exact .ok rfl
  · exact x.meets_dropCandidate.map fun _ hy => hy

theorem meets_dropStale (x : Lexer) : Meets kind (fun y => y.cursor = x.cursor) x.dropStale := by
  unfold dropStale
  split
  · exact .malformed
  · exact .ok rfl

theorem meets_separator (x : Lexer) (token : Token) (cursor : Cursor) :
    Meets kind (fun y => y.cursor = cursor) (x.separator token cursor) :=
  (meets_dropCandidate _).bind fun _ _ => .ok rfl

theorem meets_openFlow (x : Lexer) (token : Token) :
    Meets kind (fun y => y.cursor = x.cursor.next) (x.openFlow token) :=
  x.meets_addCandidate.bind fun _ hy => .ok (congrArg Cursor.next hy)

theorem meets_closeFlow (x : Lexer) (token : Token) :
    Meets kind (fun y => y.cursor = x.cursor.next) (x.closeFlow token) :=
  x.meets_dropCandidate.bind fun _ hy => .ok (congrArg Cursor.next hy)

theorem meets_flowEntry (x : Lexer) : Meets kind (fun y => y.cursor = x.cursor.next) x.flowEntry :=
  x.meets_dropCandidate.bind fun _ hy => .ok (congrArg Cursor.next hy)

theorem meets_blockMark (x : Lexer) (start token : Token) (keyAllowed : Bool) :
    Meets kind (fun y => y.cursor = x.cursor.next) (x.blockMark start token keyAllowed) := by
  unfold blockMark
  simp only
  split
  · exact .malformed
  · refine (meets_dropCandidate _).bind fun y hy => .ok (congrArg Cursor.next (hy.trans ?_))
    split
    · rfl
    · exact x.cursor_openAt _ _ _

theorem meets_value (x : Lexer) : Meets kind (fun y => y.cursor = x.cursor.next) x.value := by
  unfold value
  split
  · exact x.meets_blockMark _ _ _
  · refine .ok (congrArg Cursor.next ?_)
    split
    · rfl
    · exact cursor_openAt _ _ _ _

theorem meets_word {α : Type} {read : List Char → Except Error (α × List Char)} {token : α → Token}
    (hread : Meets kind (fun _ => True) (read x.cursor.rest.tail)) :
    Meets kind (fun y => y.cursor.rest <:+ x.cursor.rest) (x.word read token) := by
  refine x.meets_addCandidate.bind fun y hy => ?_
  rw [← hy] at hread ⊢
  exact hread.bind fun word _ => .ok (y.cursor.suffix_upTo word.2)

theorem meets_plainScalar (x : Lexer) : Meets kind (fun y => y.cursor.rest <:+ x.cursor.rest) x.plainScalar := by
  refine x.meets_addCandidate.bind fun y hy => ?_
  rw [← hy]
  exact .ok (y.cursor.suffix_upTo _)

theorem meets_blockScalar (x : Lexer) (folded : Bool) :
    Meets kind (fun y => y.cursor.rest <:+ x.cursor.rest) (x.blockScalar folded) := by
  refine x.meets_dropCandidate.bind fun y hy => ?_
  rw [← hy]
  exact (meets_block _ _ _).bind fun block _ => .ok (y.cursor.suffix_upTo block.2)

theorem suffix_skipGap (x : Lexer) : x.skipGap.cursor.rest <:+ x.cursor.rest := by
  unfold skipGap
  refine (Cursor.suffix_skip _ _).trans ?_
  split
  · exact x.cursor.suffix_next
  · exact List.suffix_refl _

/-- a token is read within the text, and a defect of it is one of the text -/
theorem meets_token {c : Char} {rest : List Char} (hrest : x.cursor.rest = c :: rest) (hplace : c :: rest <:+ text) :
    Meets (TokenDefect text) (fun y => y.cursor.rest <:+ text) (x.token c rest) := by
  have hwithin : x.cursor.rest <:+ text := hrest ▸ hplace
  have htail : x.cursor.rest.tail <:+ text := (List.tail_suffix _).trans hwithin
  have hnext {z : Except Error Lexer} (h : Meets (TokenDefect text) (fun y => y.cursor = x.cursor.next) z) :
      Meets (TokenDefect text) (fun y => y.cursor.rest <:+ text) z :=
    h.mono fun y hy => hy ▸ x.cursor.suffix_next.trans hwithin
  have hsuffix {z : Except Error Lexer} (h : Meets (TokenDefect text) (fun y => y.cursor.rest <:+ x.cursor.rest) z) :
      Meets (TokenDefect text) (fun y => y.cursor.rest <:+ text) z :=
    h.mono fun y hy => hy.trans hwithin
  have hseparator (token : Token) {cursor : Cursor} (h : cursor.rest <:+ x.cursor.rest) :
      Meets (TokenDefect text) (fun y => y.cursor.rest <:+ text) (x.separator token cursor) :=
    (x.meets_separator token cursor).mono fun y hy => hy ▸ h.trans hwithin
  -- one branch for each kind of token; only those of directives and of quoted scalars find defects
  refine .ite (fun hdirective => ?_) fun _ => ?_
  · exact (meets_directive (hdirective.1 ▸ hplace)).bind fun _ _ => hseparator _ (x.cursor.suffix_upTo _)
  refine .ite (fun _ => hseparator _ (x.cursor.suffix_skip 3)) fun _ => ?_
  refine .ite (fun _ => hseparator _ (x.cursor.suffix_skip 3)) fun _ => ?_
  refine .ite (fun _ => hnext (x.meets_openFlow _)) fun _ => ?_
  refine .ite (fun _ => hnext (x.meets_openFlow _)) fun _ => ?_
  refine .ite (fun _ => hnext (x.meets_closeFlow _)) fun _ => ?_
  refine .ite (fun _ => hnext (x.meets_closeFlow _)) fun _ => ?_
  refine .ite (fun _ => hnext x.meets_flowEntry) fun _ => ?_
  refine .ite (fun _ => hnext (x.meets_blockMark _ _ _)) fun _ => ?_
  refine .ite (fun _ => hnext (x.meets_blockMark _ _ _)) fun _ => ?_
  refine .ite (fun _ => hnext x.meets_value) fun _ => ?_
  refine .ite (fun _ => hsuffix (meets_word (meets_anchorName _))) fun _ => ?_
  refine .ite (fun _ => hsuffix (meets_word (meets_anchorName _))) fun _ => ?_
  refine .ite (fun _ => hsuffix (meets_word (meets_tagMark _))) fun _ => ?_
  refine .ite (fun _ => hsuffix (x.meets_blockScalar _)) fun _ => ?_
  refine .ite (fun _ => hsuffix (x.meets_blockScalar _)) fun _ => ?_
  refine .ite (fun _ => hsuffix (meets_word (meets_quoted htail))) fun _ => ?_
  exact .ite (fun _ => hsuffix x.meets_plainScalar) fun _ => .malformed

/-- **One token.** -/
theorem meets_next (hplace : x.cursor.rest <:+ text) :
    Meets (TokenDefect text) (fun | .inl y => y.cursor.rest <:+ text | .inr _ => True) x.next := by
  refine x.skipGap.meets_dropStale.bind fun y hy => ?_
  have hcursor : (y.closeTo y.cursor.column).cursor = x.skipGap.cursor := (cursor_closeTo _ y).trans hy
  have hwithin : (y.closeTo y.cursor.column).cursor.rest <:+ text := hcursor ▸ x.suffix_skipGap.trans hplace
  simp only
  split
  · exact (meets_dropCandidate _).bind fun _ _ => .ok trivial
  · rename_i c rest hrest
    exact (meets_token hrest (hrest ▸ hwithin)).bind fun y hy => .ok hy

/-- **All tokens.** By induction on the count of tokens, each of which starts within the text. -/
theorem failure_of_run (count : Nat) {cause : Defect} (hplace : x.cursor.rest <:+ text)
    (h : (run count x).failure = some (.defective cause)) : TokenDefect text cause := by
  induction count generalizing x with
  | zero => cases h
  | succ count ih =>
    have hnext := meets_next hplace
    unfold run at h
    split at h
    · rename_i error herror
      obtain rfl := Option.some.inj h
      exact hnext.of_defective herror
    · rename_i y hy
      exact ih (hnext.of_ok hy) h
    · cases h

end Lexer

/-- a defect behind the tokens of a text is one of those listed -/
theorem tokenDefect_of_failure {source : List Char} {cause : Defect}
    (h : (tokensOf source).failure = some (.defective cause)) : TokenDefect (unifyBreaks source) cause := by
  unfold tokensOf at h
  split at h
  · exact Lexer.failure_of_run _ (List.suffix_refl _) h
  · cases h

end Drumline.Yaml
