/-
Reading — a reader does not know how far from the beginning it stands.

What stands at a place is read from the characters behind it alone; the offset is
only noted down, in the spans of the nodes and of the errors.  So the same rest
of a source at an offset that is greater by some bytes is read as the same thing,
with all spans moved on by as many bytes, and fails with the same fault.
-/
import Bracework.Proofs.Reading.Outcome

namespace Bracework

/-! ## Moving spans on -/

/-- The span that many bytes further on. -/
def Span.shift (n : Nat) (s : Span) : Span := ⟨n + s.start, n + s.stop⟩

mutual
/-- An expression with its spans moved on. -/
def Expression.shift (n : Nat) : Expression → Expression
  | .path p => .path ⟨p.text, p.span.shift n⟩
  | .literal l => .literal l
  | .sub c span => .sub (c.shift n) (span.shift n)
termination_by structural e => e

/-- A call with its spans moved on. -/
def Call.shift (n : Nat) : Call → Call
  | ⟨callee, params, hash⟩ => ⟨callee.shift n, shiftParams n params, shiftHash n hash⟩
termination_by structural c => c

/-- Positional arguments with their spans moved on. -/
def shiftParams (n : Nat) : List Expression → List Expression
  | [] => []
  | e :: es => e.shift n :: shiftParams n es
termination_by structural es => es

/-- Named arguments with their spans moved on. -/
def shiftHash (n : Nat) : List (String × Expression) → List (String × Expression)
  | [] => []
  | (key, e) :: rest => (key, e.shift n) :: shiftHash n rest
termination_by structural rest => rest
end

/-- A mustache with its spans moved on. -/
def Mustache.shift (n : Nat) (m : Mustache) : Mustache :=
  ⟨m.call.shift n, m.trusting, m.span.shift n⟩

/-- A text with its span moved on. -/
def Text.shift (n : Nat) (t : Text) : Text := ⟨t.chars, t.span.shift n⟩

/-- A comment with its span moved on. -/
def Comment.shift (n : Nat) (c : Comment) : Comment := ⟨c.value, c.html, c.span.shift n⟩

/-- A piece of an attribute value with its spans moved on. -/
def AttributePart.shift (n : Nat) : AttributePart → AttributePart
  | .text t => .text (t.shift n)
  | .mustache m => .mustache (m.shift n)

/-- An attribute value with its spans moved on. -/
def AttributeValue.shift (n : Nat) : AttributeValue → AttributeValue
  | .text t => .text (t.shift n)
  | .mustache m => .mustache (m.shift n)
  | .concat parts => .concat (parts.map (AttributePart.shift n))

/-- An attribute with its spans moved on. -/
def Attribute.shift (n : Nat) (a : Attribute) : Attribute :=
  ⟨a.name, a.value.shift n, a.span.shift n⟩

mutual
/-- A statement with its spans moved on. -/
def Statement.shift (n : Nat) : Statement → Statement
  | .element e => .element (e.shift n)
  | .text t => .text (t.shift n)
  | .mustache m => .mustache (m.shift n)
  | .block b => .block (b.shift n)
  | .comment c => .comment (c.shift n)
termination_by structural s => s

/-- An element with its spans moved on. -/
def Element.shift (n : Nat) : Element → Element
  | ⟨tag, attributes, modifiers, children, selfClosing, span⟩ =>
      ⟨tag, attributes.map (Attribute.shift n), modifiers.map (Mustache.shift n),
        shiftStatements n children, selfClosing, span.shift n⟩
termination_by structural e => e

/-- A block statement with its spans moved on. -/
def BlockStatement.shift (n : Nat) : BlockStatement → BlockStatement
  | ⟨call, program, inverse, span⟩ =>
      ⟨call.shift n, program.shift n, shiftInverse n inverse, span.shift n⟩
termination_by structural b => b

/-- An inverse with its spans moved on. -/
def shiftInverse (n : Nat) : Option Block → Option Block
  | none => none
  | some b => some (b.shift n)
termination_by structural b => b

/-- A block with its spans moved on. -/
def Block.shift (n : Nat) : Block → Block
  | ⟨body, params⟩ => ⟨shiftStatements n body, params⟩
termination_by structural b => b

/-- Statements with their spans moved on. -/
def shiftStatements (n : Nat) : List Statement → List Statement
  | [] => []
  | s :: ss => s.shift n :: shiftStatements n ss
termination_by structural ss => ss
end

theorem shiftStatements_eq_map (n : Nat) (ss : List Statement) :
    shiftStatements n ss = ss.map (Statement.shift n) := by
  induction ss with
  | nil => rfl
  | cons s ss ih => rw [shiftStatements, ih, List.map_cons]

/-- The head of a block with its spans and its start moved on. -/
def BlockHead.shift (n : Nat) (head : BlockHead) : BlockHead :=
  ⟨head.call.shift n, head.params, n + head.start⟩

/-- What stands in a tag with its spans moved on. -/
def Reading.TagBody.shift (n : Nat) (body : Reading.TagBody) : Reading.TagBody :=
  ⟨body.attributes.map (Attribute.shift n), body.modifiers.map (Mustache.shift n),
    body.selfClosing⟩

/-- An opening tag with its spans moved on. -/
def OpeningTag.shift (n : Nat) (tag : OpeningTag) : OpeningTag :=
  ⟨tag.tag, tag.attributes.map (Attribute.shift n), tag.modifiers.map (Mustache.shift n),
    tag.selfClosing, tag.span.shift n⟩

/-- An item with its spans moved on. -/
def Item.shift (n : Nat) : Item → Item
  | .leaf s => .leaf (s.shift n)
  | .openTag tag => .openTag (tag.shift n)
  | .closeTag name span => .closeTag name (span.shift n)
  | .openBlock head => .openBlock (head.shift n)
  | .elseMark chained span => .elseMark (chained.map (BlockHead.shift n)) (span.shift n)
  | .closeBlock name span => .closeBlock name (span.shift n)

/-- An error about the bytes further on. -/
def ParseError.shift (n : Nat) (e : ParseError) : ParseError := ⟨e.fault, e.span.shift n⟩

/-! ## Places -/

namespace Cursor

variable (n : Nat) (c : Cursor)

/-- The same rest of a source, with that many bytes more before it. -/
def shift : Cursor := ⟨c.rest, n + c.offset⟩

theorem advance_shift (count : Nat) : (c.shift n).advance count = (c.advance count).shift n :=
  congrArg (Cursor.mk _) (Nat.add_assoc ..)

theorem skip_shift (test : Char → Bool) : (c.shift n).skip test = (c.skip test).shift n :=
  congrArg (Cursor.mk _) (Nat.add_assoc ..)

theorem skipSpace_shift : (c.shift n).skipSpace = c.skipSpace.shift n := c.skip_shift n _

theorem endsWithout_shift (missing : Missing) :
    (c.shift n).endsWithout missing = (c.endsWithout missing).shift n := by
  have hlimit : (c.shift n).limit = n + c.limit := Nat.add_assoc ..
  rw [endsWithout, hlimit]
  rfl

end Cursor

/-! ## Results of reading -/

/-- Two results of reading are the same but for bytes before the source: values that
correspond, or one fault, of which the second is that much further on. -/
inductive Alike (n : Nat) {α β : Type} (same : α → β → Prop) : Reading α → Reading β → Prop
  | ok {a : α} {b : β} : same a b → Alike n same (.ok a) (.ok b)
  | error {e e' : ParseError} : e' = e.shift n → Alike n same (.error e) (.error e')

theorem Alike.bind {n : Nat} {α β γ δ : Type} {same : α → β → Prop} {same' : γ → δ → Prop}
    {x : Reading α} {y : Reading β} {k : α → Reading γ} {l : β → Reading δ}
    (h : Alike n same x y) (hkl : ∀ a b, same a b → Alike n same' (k a) (l b)) :
    Alike n same' (x >>= k) (y >>= l) := by
  cases h with
  | ok hab => exact hkl _ _ hab
  | error he => exact .error he

/-- A step is another one moved on: its place is that much further on, and its value differs by
what moving on does to it. -/
structure Step.Moved {c d : Cursor} {α : Type} (n : Nat) (f : α → α) (s : Step c α)
    (t : Step d α) : Prop where
  next : t.next = s.next.shift n
  value : t.value = f s.value

/-- A move is another one moved on. -/
structure Move.Moved {c d : Cursor} {α : Type} (n : Nat) (f : α → α) (s : Move c α)
    (t : Move d α) : Prop where
  next : t.next = s.next.shift n
  value : t.value = f s.value

theorem Alike.map {n : Nat} {α β γ δ : Type} {same : α → β → Prop} {same' : γ → δ → Prop}
    {x : Reading α} {y : Reading β} {k : α → γ} {l : β → δ} (h : Alike n same x y)
    (hkl : ∀ a b, same a b → same' (k a) (l b)) : Alike n same' (x.map k) (y.map l) := by
  cases h with
  | ok hab => exact .ok (hkl _ _ hab)
  | error he => exact .error he

/-- A test of what is left of a source has the same answer at both places. -/
theorem Alike.ite {n : Nat} {α β : Type} {same : α → β → Prop} {p : Prop} [Decidable p]
    {x x' : Reading α} {y y' : Reading β} (h : p → Alike n same x y)
    (h' : ¬ p → Alike n same x' y') :
    Alike n same (if p then x else x') (if p then y else y') := by
  by_cases hp : p
  · rw [if_pos hp, if_pos hp]
    exact h hp
  · rw [if_neg hp, if_neg hp]
    exact h' hp

theorem Alike.dite {n : Nat} {α β : Type} {same : α → β → Prop} {p : Prop} [Decidable p]
    {x : p → Reading α} {x' : ¬ p → Reading α} {y : p → Reading β} {y' : ¬ p → Reading β}
    (h : ∀ hp, Alike n same (x hp) (y hp)) (h' : ∀ hp, Alike n same (x' hp) (y' hp)) :
    Alike n same (if hp : p then x hp else x' hp) (if hp : p then y hp else y' hp) := by
  by_cases hp : p
  · rw [dif_pos hp, dif_pos hp]
    exact h hp
  · rw [dif_neg hp, dif_neg hp]
    exact h' hp

/-- What is left of a source begins with the same character at both places, or ends there. -/
theorem Alike.cases {n : Nat} {α β : Type} {same : α → β → Prop} {c : Cursor}
    {x : c.rest = [] → Reading α} {x' : ∀ first others, c.rest = first :: others → Reading α}
    {y : c.rest = [] → Reading β} {y' : ∀ first others, c.rest = first :: others → Reading β}
    (h : ∀ hr, Alike n same (x hr) (y hr))
    (h' : ∀ first others hr, Alike n same (x' first others hr) (y' first others hr)) :
    Alike n same
      (match hr : c.rest with
        | [] => x hr
        | first :: others => x' first others hr)
      (match hr : c.rest with
        | [] => y hr
        | first :: others => y' first others hr) := by
  split
  · exact h _
  · exact h' _ _ _

section Binding

variable {c d : Cursor} {n : Nat} {α β γ : Type} {same : β → γ → Prop} {f : α → α}

theorem Alike.bind_step {x : Reading (Step c α)} {y : Reading (Step d α)}
    {k : Step c α → Reading β} {l : Step d α → Reading γ} (h : Alike n (Step.Moved n f) x y)
    (hkl : ∀ v e hc hd, Alike n same (k ⟨v, e, hc⟩) (l ⟨f v, e.shift n, hd⟩)) :
    Alike n same (x >>= k) (y >>= l) := by
  refine h.bind ?_
  rintro ⟨v, e, hc⟩ ⟨v', e', hd⟩ ⟨hnext, hvalue⟩
  obtain rfl : e' = e.shift n := hnext
  obtain rfl : v' = f v := hvalue
  exact hkl v e hc hd

theorem Alike.bind_move {x : Reading (Move c α)} {y : Reading (Move d α)}
    {k : Move c α → Reading β} {l : Move d α → Reading γ} (h : Alike n (Move.Moved n f) x y)
    (hkl : ∀ v e hc hd, Alike n same (k ⟨v, e, hc⟩) (l ⟨f v, e.shift n, hd⟩)) :
    Alike n same (x >>= k) (y >>= l) := by
  refine h.bind ?_
  rintro ⟨v, e, hc⟩ ⟨v', e', hd⟩ ⟨hnext, hvalue⟩
  obtain rfl : e' = e.shift n := hnext
  obtain rfl : v' = f v := hvalue
  exact hkl v e hc hd

end Binding

open Cursor

namespace Reading

variable (n : Nat)

theorem expect_shift (c : Cursor) (token : List Char) (h : token ≠ []) :
    Alike n (Step.Moved n id) (c.expect token h) ((c.shift n).expect token h) := by
  unfold expect
  refine .dite (fun _ => .ok ⟨c.advance_shift n _, rfl⟩) fun _ => ?_
  obtain ⟨rest, offset⟩ := c
  cases rest with
  | nil => exact .error (endsWithout_shift ..)
  | cons found rest => exact .error rfl

/-! ## Expressions and calls -/

theorem ofWord_shift (word : List Char) (span : Span) :
    Expression.ofWord word (span.shift n) = (Expression.ofWord word span).shift n := by
  unfold Expression.ofWord
  repeat' split
  all_goals rfl

theorem string_shift {c : Cursor} {quote : Char} {others : List Char}
    (h : c.rest = quote :: others) :
    Alike n (Step.Moved n (Expression.shift n)) (string c quote others h)
      (string (c.shift n) quote others h) := by
  unfold string
  split
  case h_1 => exact .error (endsWithout_shift ..)
  case h_2 text after hs =>
    refine .ok ⟨congrArg (Cursor.mk after) ?_, rfl⟩
    simp only [Cursor.shift, Nat.add_assoc]

theorem numeral_shift {c : Cursor} {first : Char} {others : List Char}
    (h : c.rest = first :: others) :
    Alike n (Step.Moved n (Expression.shift n)) (numeral c first others h)
      (numeral (c.shift n) first others h) := by
  unfold numeral
  dsimp only
  split
  · exact .error (congrArg (fun stop => unexpected _ ⟨n + c.offset, stop⟩) (Nat.add_assoc ..))
  · exact .ok ⟨congrArg (Cursor.mk _) (Nat.add_assoc ..), rfl⟩

theorem word_shift {c : Cursor} {first : Char} {others : List Char}
    (h : c.rest = first :: others) (hf : Token.isPathChar first = true) :
    Step.Moved n (Expression.shift n) (word c first others h hf)
      (word (c.shift n) first others h hf) := by
  have hnext := c.skip_shift n Token.isPathChar
  have hword := ofWord_shift n (c.taken Token.isPathChar)
    ((c.skip Token.isPathChar).spanFrom c.offset)
  refine ⟨hnext, Eq.trans ?_ hword⟩
  exact congrArg (fun next : Cursor => Expression.ofWord _ (next.spanFrom (n + c.offset))) hnext

/-- Arguments with their spans moved on. -/
def shiftArguments (a : List Expression × List (String × Expression)) :
    List Expression × List (String × Expression) :=
  (shiftParams n a.1, shiftHash n a.2)

theorem behindName_shift (c : Cursor) (name : List Char) :
    behindName (c.shift n) name = (behindName c name).shift n := by
  rw [behindName, advance_shift, skipSpace_shift, behindName]

mutual
theorem expression_shift (c : Cursor) :
    Alike n (Step.Moved n (Expression.shift n)) (expression c) (expression (c.shift n)) := by
  unfold expression
  refine .cases (fun _ => .error (endsWithout_shift ..)) fun first others hr => ?_
  refine .ite (fun _ => ?_) fun _ => .ite (fun _ => string_shift n hr) fun _ =>
    .ite (fun _ => numeral_shift n hr) fun _ => .dite (fun hp => .ok (word_shift n hr hp)) fun _ => ?_
  · have hlt : (c.advance 1).skipSpace.left < c.left :=
      Nat.lt_of_le_of_lt (Cursor.left_skipSpace_le _) (left_advance_one hr)
    have hcall := call_shift (c.advance 1).skipSpace c.offset
    rw [← skipSpace_shift, ← advance_shift] at hcall
    refine hcall.bind_step fun inner d _ _ => ?_
    have hclose := expect_shift n d.skipSpace Token.subClose (by decide)
    rw [← skipSpace_shift] at hclose
    exact hclose.bind_step fun _ e _ _ => .ok ⟨rfl, rfl⟩
  · exact .error (congrArg (fun stop => unexpected _ ⟨n + c.offset, stop⟩) (Nat.add_assoc ..))
termination_by 2 * c.left
decreasing_by omega

theorem call_shift (c : Cursor) (start : Nat) :
    Alike n (Step.Moved n (Call.shift n)) (call c start) (call (c.shift n) (n + start)) := by
  rw [call, call]
  refine .ite (fun _ => .error rfl) fun _ => ?_
  refine (expression_shift c).bind_step fun callee d hlt _ => ?_
  exact (arguments_shift d false).bind_move fun _ e _ _ => .ok ⟨rfl, rfl⟩
termination_by 2 * c.left + 1
decreasing_by all_goals omega

theorem arguments_shift (c : Cursor) (named : Bool) :
    Alike n (Move.Moved n (shiftArguments n)) (arguments c named)
      (arguments (c.shift n) named) := by
  have hle : c.skipSpace.left ≤ c.left := Cursor.left_skipSpace_le c
  have hspace := c.skipSpace_shift n
  unfold arguments
  dsimp only
  refine .ite (fun _ => .ok ⟨hspace, rfl⟩) fun _ => ?_
  cases hk : Token.argumentName? c.skipSpace.rest with
  | some name =>
      have hk' : Token.argumentName? (c.shift n).skipSpace.rest = some name := hk
      have hb := left_behindName_le c.skipSpace name
      have hvalue := expression_shift (behindName c.skipSpace name)
      rw [← behindName_shift, ← hspace] at hvalue
      rw [hk']
      refine hvalue.bind_step fun value d hlt _ => ?_
      exact (arguments_shift d true).bind_move fun _ e _ _ => .ok ⟨rfl, rfl⟩
  | none =>
      have hk' : Token.argumentName? (c.shift n).skipSpace.rest = none := hk
      rw [hk']
      refine .ite (fun _ => .error ?_) fun _ => ?_
      · exact congrArg (fun d : Cursor => unexpected _ d.here) hspace
      · have hvalue := expression_shift c.skipSpace
        rw [← hspace] at hvalue
        refine hvalue.bind_step fun value d hlt _ => ?_
        exact (arguments_shift d false).bind_move fun _ e _ _ => .ok ⟨rfl, rfl⟩
termination_by 2 * c.left + 1
decreasing_by all_goals omega
end

/-! ## Mustaches and block heads -/

theorem mustacheBetween_shift (c : Cursor) (trusting : Bool) (opening closing : List Char)
    (ho : opening ≠ []) (hc : closing ≠ []) :
    Alike n (Step.Moved n (Mustache.shift n)) (mustacheBetween c trusting opening closing ho hc)
      (mustacheBetween (c.shift n) trusting opening closing ho hc) := by
  refine (expect_shift n c opening ho).bind_step fun _ d _ _ => ?_
  have hcall := call_shift n d.skipSpace c.offset
  rw [← skipSpace_shift] at hcall
  refine hcall.bind_step fun inner e _ _ => ?_
  have hclose := expect_shift n e.skipSpace closing hc
  rw [← skipSpace_shift] at hclose
  refine hclose.bind_step fun _ f _ _ => ?_
  exact .ok ⟨rfl, rfl⟩

theorem mustache_shift (c : Cursor) :
    Alike n (Step.Moved n (Mustache.shift n)) (mustache c) (mustache (c.shift n)) := by
  unfold mustache
  exact .ite (fun _ => mustacheBetween_shift ..) fun _ => mustacheBetween_shift ..

theorem paramNames_shift (c : Cursor) :
    Alike n (Step.Moved n id) (paramNames c) (paramNames (c.shift n)) := by
  have hspace := c.skipSpace_shift n
  unfold paramNames
  dsimp only
  refine .dite (fun _ => .ok ⟨?_, rfl⟩) fun _ => .dite (fun _ => .error ?_) fun hn => ?_
  · exact (congrArg (advance · 1) hspace).trans (advance_shift ..)
  · exact congrArg (fun d : Cursor => unexpected _ d.here) hspace
  · have hlt : (c.skipSpace.skip Token.isNameChar).left < c.left := left_skip_lt hn
    have hnames := paramNames_shift (c.skipSpace.skip Token.isNameChar)
    rw [← skip_shift, ← hspace] at hnames
    exact hnames.bind_step fun names d _ _ => .ok ⟨rfl, rfl⟩
termination_by c.left
decreasing_by exact hlt

theorem blockParams_shift (c : Cursor) :
    Alike n (Move.Moved n id) (blockParams c) (blockParams (c.shift n)) := by
  unfold blockParams
  refine .ite (fun _ => ?_) fun _ => .ok ⟨rfl, rfl⟩
  have hbar := expect_shift n (c.advance Token.paramsOpen.length).skipSpace Token.paramsBar
    (by decide)
  rw [← skipSpace_shift, ← advance_shift] at hbar
  refine hbar.bind_step fun _ d _ _ => ?_
  exact (paramNames_shift n d).bind_step fun names e _ _ => .ok ⟨e.skipSpace_shift n, rfl⟩

theorem blockHead_shift (c : Cursor) (start : Nat) :
    Alike n (Step.Moved n (BlockHead.shift n)) (blockHead c start)
      (blockHead (c.shift n) (n + start)) := by
  refine (call_shift n c start).bind_step fun inner d _ _ => ?_
  have hparams := blockParams_shift n d.skipSpace
  rw [← skipSpace_shift] at hparams
  exact hparams.bind_move fun params e _ _ => .ok ⟨rfl, rfl⟩

/-! ## Opening tags -/

theorem textPart_shift (text : List Char) (span : Span) :
    textPart text (span.shift n) = (textPart text span).map (AttributePart.shift n) := by
  unfold textPart
  split <;> rfl

theorem frontPart_shift (quote : Char) (c : Cursor) :
    frontPart quote (c.shift n) = (frontPart quote c).map (AttributePart.shift n) := by
  have hbehind : behindText quote (c.shift n) = (behindText quote c).shift n := advance_shift ..
  rw [frontPart, frontPart, hbehind, ← textPart_shift]
  rfl

theorem parts_shift (quote : Char) (c : Cursor) :
    Alike n (Step.Moved n (List.map (AttributePart.shift n))) (parts quote c)
      (parts quote (c.shift n)) := by
  have hbehind := c.advance_shift n (partText quote c.rest).length
  have hfront := frontPart_shift n quote c
  unfold parts
  dsimp only
  refine .cases (fun _ => .error (endsWithout_shift ..)) fun first others _ =>
    .ite (fun _ => .ok ⟨?_, hfront⟩) fun _ => ?_
  · exact (congrArg (advance · 1) hbehind).trans (advance_shift ..)
  · have hm := mustache_shift n (c.advance (partText quote c.rest).length)
    rw [← hbehind] at hm
    refine hm.bind_step fun m d hlt _ => ?_
    have hnext : d.left < c.left := Nat.lt_of_lt_of_le hlt (c.left_advance_le _)
    refine (parts_shift quote d).bind_step fun pieces e _ _ => ?_
    have hpieces : frontPart quote (c.shift n) ++ .mustache (m.shift n) ::
          pieces.map (AttributePart.shift n) =
        (frontPart quote c ++ .mustache m :: pieces).map (AttributePart.shift n) := by
      rw [hfront, List.map_append]
      rfl
    exact .ok ⟨rfl, hpieces⟩
termination_by c.left
decreasing_by exact hnext

theorem valueOfParts_shift (span : Span) (pieces : List AttributePart) :
    valueOfParts (span.shift n) (pieces.map (AttributePart.shift n)) =
      (valueOfParts span pieces).shift n := by
  rcases pieces with _ | ⟨piece, _ | ⟨next, pieces⟩⟩
  · rfl
  · cases piece <;> rfl
  · cases piece <;> rfl

theorem bareValue_shift (c : Cursor) :
    Move.Moved n (AttributeValue.shift n) (attributeValue.bareValue c)
      (attributeValue.bareValue (c.shift n)) := by
  have hnext := c.skip_shift n fun x => !Token.endsBareValue x
  exact ⟨hnext,
    congrArg (fun d : Cursor => AttributeValue.text ⟨_, d.spanFrom (n + c.offset)⟩) hnext⟩

theorem attributeValue_shift (c : Cursor) :
    Alike n (Move.Moved n (AttributeValue.shift n)) (attributeValue c)
      (attributeValue (c.shift n)) := by
  unfold attributeValue
  refine .ite (fun _ => ?_) fun _ => ?_
  · exact (mustache_shift n c).bind_step fun m d _ _ => .ok ⟨rfl, rfl⟩
  · have hbare := bareValue_shift n c
    cases hr : c.rest with
    | nil =>
        have hr' : (c.shift n).rest = [] := hr
        rw [hr']
        exact .ok hbare
    | cons quote others =>
        have hr' : (c.shift n).rest = quote :: others := hr
        rw [hr']
        refine .ite (fun _ => ?_) fun _ => .ok hbare
        have hparts := parts_shift n quote (c.advance 1)
        rw [← advance_shift] at hparts
        exact hparts.bind_step fun pieces d _ _ =>
          .ok ⟨rfl, valueOfParts_shift n (d.spanFrom c.offset) pieces⟩

theorem attributeTail_shift (c : Cursor) :
    Alike n (Move.Moved n (AttributeValue.shift n)) (attributeTail c)
      (attributeTail (c.shift n)) := by
  unfold attributeTail
  refine .ite (fun _ => ?_) fun _ => .ok ⟨rfl, rfl⟩
  have hvalue := attributeValue_shift n (c.advance 1).skipSpace
  rw [← skipSpace_shift, ← advance_shift] at hvalue
  exact hvalue.bind_move fun value d _ _ => .ok ⟨rfl, rfl⟩

theorem tagAttribute_shift (c : Cursor) (first : Char) :
    Alike n (Step.Moved n (Attribute.shift n)) (tagAttribute c first)
      (tagAttribute (c.shift n) first) := by
  unfold tagAttribute
  refine .dite (fun _ => .error rfl) fun _ => ?_
  have htail := attributeTail_shift n (c.skip fun x => !Token.endsAttributeName x).skipSpace
  rw [← skipSpace_shift, ← skip_shift] at htail
  exact htail.bind_move fun value d _ _ => .ok ⟨rfl, rfl⟩

theorem tagBody_shift (tag : String) (start : Nat) (c : Cursor) :
    Alike n (Step.Moved n (TagBody.shift n)) (tagBody tag start c)
      (tagBody tag (n + start) (c.shift n)) := by
  have hspace := c.skipSpace_shift n
  have hle := c.left_skipSpace_le
  unfold tagBody
  dsimp only
  refine .cases (fun _ => .error ?_) fun first others _ => .dite (fun _ => .ok ⟨?_, rfl⟩) fun _ =>
    .ite (fun _ => .ok ⟨?_, rfl⟩) fun _ => .ite (fun _ => ?_) fun _ => ?_
  · exact congrArg (fun d : Cursor => ParseError.mk _ (d.spanFrom (n + start))) hspace
  · exact (congrArg (advance · 2) hspace).trans (advance_shift ..)
  · exact (congrArg (advance · 1) hspace).trans (advance_shift ..)
  · have hm := mustache_shift n c.skipSpace
    rw [← hspace] at hm
    refine hm.bind_step fun m d hd _ => ?_
    have hlt := Nat.lt_of_lt_of_le hd hle
    exact (tagBody_shift tag start d).bind_step fun body e _ _ => .ok ⟨rfl, rfl⟩
  · have ha := tagAttribute_shift n c.skipSpace first
    rw [← hspace] at ha
    refine ha.bind_step fun a d hd _ => ?_
    have hlt := Nat.lt_of_lt_of_le hd hle
    exact (tagBody_shift tag start d).bind_step fun body e _ _ => .ok ⟨rfl, rfl⟩
termination_by c.left
decreasing_by all_goals exact hlt

theorem openingTag_shift (c : Cursor) :
    Alike n (Step.Moved n (OpeningTag.shift n)) (openingTag c) (openingTag (c.shift n)) := by
  refine (expect_shift n c Token.tagOpen (by decide)).bind_step fun _ d _ _ => ?_
  have hbody := tagBody_shift n (String.ofList (d.taken Token.isTagChar)) c.offset
    (d.skip Token.isTagChar)
  rw [← skip_shift] at hbody
  exact hbody.bind_step fun body e _ _ => .ok ⟨rfl, rfl⟩

/-! ## Items -/

theorem closingTag_shift (c : Cursor) :
    Alike n (Step.Moved n (Item.shift n)) (closingTag c) (closingTag (c.shift n)) := by
  have hclose := expect_shift n
    ((c.advance Token.closingTagOpen.length).skip Token.isTagChar).skipSpace Token.tagClose
    (by decide)
  rw [← skipSpace_shift, ← skip_shift, ← advance_shift] at hclose
  exact hclose.bind_step fun _ d _ _ => .ok ⟨rfl, rfl⟩

theorem closingBlock_shift (c : Cursor) :
    Alike n (Step.Moved n (Item.shift n)) (closingBlock c) (closingBlock (c.shift n)) := by
  have hclose := expect_shift n
    ((c.advance Token.blockClose.length).skipSpace.skip Token.isPathChar).skipSpace
    Token.mustacheClose (by decide)
  rw [← skipSpace_shift, ← skip_shift, ← skipSpace_shift, ← advance_shift] at hclose
  exact hclose.bind_step fun _ d _ _ => .ok ⟨rfl, rfl⟩

theorem elseItem_shift (c : Cursor) :
    Alike n (Step.Moved n (Item.shift n)) (elseItem c) (elseItem (c.shift n)) := by
  have hbehind : ((c.shift n).advance Token.elseOpen.length).skipSpace =
      (c.advance Token.elseOpen.length).skipSpace.shift n := by
    rw [advance_shift, skipSpace_shift]
  unfold elseItem
  dsimp only
  have hnext := (congrArg (advance · 2) hbehind).trans (advance_shift ..)
  refine .dite (fun _ => .ok ⟨hnext, ?_⟩) fun _ => ?_
  · exact congrArg (fun d : Cursor => Item.elseMark none (d.spanFrom (n + c.offset))) hnext
  · have hhead := blockHead_shift n (c.advance Token.elseOpen.length).skipSpace c.offset
    rw [← hbehind] at hhead
    refine hhead.bind_step fun head d _ _ => ?_
    have hclose := expect_shift n d Token.mustacheClose (by decide)
    exact hclose.bind_step fun _ e _ _ => .ok ⟨rfl, rfl⟩

theorem openingBlock_shift (c : Cursor) :
    Alike n (Step.Moved n (Item.shift n)) (openingBlock c) (openingBlock (c.shift n)) := by
  have hhead := blockHead_shift n (c.advance Token.blockOpen.length).skipSpace c.offset
  rw [← skipSpace_shift, ← advance_shift] at hhead
  refine hhead.bind_step fun head d _ _ => ?_
  have hclose := expect_shift n d Token.mustacheClose (by decide)
  exact hclose.bind_step fun _ e _ _ => .ok ⟨rfl, rfl⟩

theorem commentBetween_shift (c : Cursor) (html : Bool) (opening closing : List Char)
    (ho : opening ≠ [] ∧ c.startsWith opening = true)
    (ho' : opening ≠ [] ∧ (c.shift n).startsWith opening = true) :
    Alike n (Step.Moved n (Item.shift n)) (commentBetween c html opening closing ho)
      (commentBetween (c.shift n) html opening closing ho') := by
  have hoffset (value : List Char) : ((c.shift n).advance opening.length).offset +
      utf8Length value + utf8Length closing = n + ((c.advance opening.length).offset +
        utf8Length value + utf8Length closing) := by
    rw [advance_shift]
    simp only [Cursor.shift, Nat.add_assoc]
  rw [commentBetween.eq_def (c.shift n)]
  split
  case h_1 hs' =>
    have hs : splitAtFirst? closing (c.advance opening.length).rest = none := hs'
    unfold commentBetween
    split
    case h_1 => exact .error (endsWithout_shift ..)
    case h_2 hsome => cases hs.symm.trans hsome
  case h_2 value after hs' =>
    have hs : splitAtFirst? closing (c.advance opening.length).rest = some (value, after) := hs'
    unfold commentBetween
    split
    case h_1 hnone => cases hs.symm.trans hnone
    case h_2 hsome =>
      obtain ⟨rfl, rfl⟩ := Prod.mk.inj (Option.some.inj (hs.symm.trans hsome))
      exact .ok ⟨congrArg (Cursor.mk _) (hoffset _), congrArg (fun stop => Item.leaf (.comment
        ⟨_, html, ⟨n + c.offset, stop⟩⟩)) (hoffset _)⟩

theorem textItem_shift {c : Cursor} {first : Char} {others : List Char}
    (h : c.rest = first :: others) :
    Step.Moved n (Item.shift n) (textItem c first others h)
      (textItem (c.shift n) first others h) := by
  have hnext := c.advance_shift n (first :: textTail others).length
  exact ⟨hnext,
    congrArg (fun d : Cursor => Item.leaf (.text ⟨_, d.spanFrom (n + c.offset)⟩)) hnext⟩

/-- The same rest of a source is read as the same item, or fails with the same fault. -/
theorem item_shift {c : Cursor} {first : Char} {others : List Char}
    (hr : c.rest = first :: others) :
    Alike n (Step.Moved n (Item.shift n)) (item c first others hr)
      (item (c.shift n) first others hr) := by
  have hr' : (c.shift n).rest = first :: others := hr
  cases hm : Mark.of c.rest with
  | closingTag =>
      rw [item_closingTag hr hm, item_closingTag hr' hm]
      exact closingTag_shift n c
  | closingBlock =>
      rw [item_closingBlock hr hm, item_closingBlock hr' hm]
      exact closingBlock_shift n c
  | elseMark =>
      rw [item_elseMark hr hm, item_elseMark hr' hm]
      exact elseItem_shift n c
  | longRemark =>
      obtain ⟨ho, hi⟩ := item_longRemark hr hm
      obtain ⟨ho', hi'⟩ := item_longRemark hr' hm
      rw [hi, hi']
      exact commentBetween_shift ..
  | remark =>
      obtain ⟨ho, hi⟩ := item_remark hr hm
      obtain ⟨ho', hi'⟩ := item_remark hr' hm
      rw [hi, hi']
      exact commentBetween_shift ..
  | openingBlock =>
      rw [item_openingBlock hr hm, item_openingBlock hr' hm]
      exact openingBlock_shift n c
  | mustache =>
      rw [item_mustache hr hm, item_mustache hr' hm]
      exact (mustache_shift n c).bind_step fun m d _ _ => .ok ⟨rfl, rfl⟩
  | comment =>
      obtain ⟨ho, hi⟩ := item_comment hr hm
      obtain ⟨ho', hi'⟩ := item_comment hr' hm
      rw [hi, hi']
      exact commentBetween_shift ..
  | openingTag =>
      rw [item_openingTag hr hm, item_openingTag hr' hm]
      exact (openingTag_shift n c).bind_step fun tag d _ _ => .ok ⟨rfl, rfl⟩
  | text =>
      rw [item_text hr hm, item_text hr' hm]
      exact .ok (textItem_shift n hr)

end Reading

end Bracework
