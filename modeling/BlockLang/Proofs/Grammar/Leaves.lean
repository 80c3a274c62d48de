import BlockLang.Proofs.Grammar.Spelling
import Mathlib.Data.List.Forall2

/-!
# The leaves of what is parsed

The leaves of a tree are its names and its literals, in the order in which they are written
(`Program.leaves`).  A text that is parsed has just these leaves: going through its names and its
literals from the beginning to the end, each leaf of the tree is what the next token denotes
(`Grammar.Statements.hasLeaves`).  No leaf is added or lost, none changes its place, and an
integer is the number that the digits of its own token denote.

Together with what is known of the texts of tokens this gives the invariants of trees
(`Source.parsed_as_written`).
-/

namespace BlockLang

/-! ## Leaves -/

/-- A name or a literal. -/
inductive Leaf
  | name (ident : Ident)
  | literal (value : Literal)

/-- Whether the tokens of a kind are names or stand for values. -/
def TokenKind.isLeaf (kind : TokenKind) : Bool :=
  kind ∈ [.name, .integer, .float, .char, .kwTrue, .kwFalse]

/-- What a token denotes, on its own line. -/
inductive Token.Denotes : Token → Leaf → Prop
  | name (text : String) (line : Nat) : Denotes ⟨.name, text, line⟩ (.name ⟨text, line⟩)
  | int {text : String} {value : Int64} (line : Nat)
    (hvalue : value.toInt = Decimal.ofDigits text.toList)
    (hlimit : Decimal.ofDigits text.toList < 2 ^ 63) :
    Denotes ⟨.integer, text, line⟩ (.literal (.int value line))
  | float {text : String} {value : Float} (line : Nat)
    (hvalue : Decimal.ofText? text = some value) :
    Denotes ⟨.float, text, line⟩ (.literal (.float value line))
  | bool (value : Bool) (text : String) (line : Nat) :
    Denotes ⟨if value then .kwTrue else .kwFalse, text, line⟩ (.literal (.bool value line))
  | char {text : String} {value : Char} (line : Nat)
    (hvalue : CharConstant.unquote? text = some value) :
    Denotes ⟨.char, text, line⟩ (.literal (.char value line))

mutual

/-- The leaves of an expression. -/
def Expr.leaves : Expr → List Leaf
  | .literal value => [.literal value]
  | .name ident => [.name ident]
  | .unary _ operand _ => operand.leaves
  | .binary _ left right _ => left.leaves ++ right.leaves
  | .block body _ => Stmt.allLeaves body

/-- The leaves of a statement, of which the name comes first and then the type. -/
def Stmt.leaves : Stmt → List Leaf
  | .constDef name ty value _ | .varDef name ty value _ =>
    .name name :: (ty.toList.map .name ++ value.leaves)
  | .varDecl name ty _ => .name name :: ty.toList.map .name
  | .assign target value _ => .name target :: value.leaves
  | .print value _ | .expr value => value.leaves
  | .ifElse test thenBlock elseBlock _ =>
    test.leaves ++ (Stmt.allLeaves thenBlock ++ Stmt.allLeaves elseBlock)
  | .whileLoop test body _ => test.leaves ++ Stmt.allLeaves body
  | .breakLoop _ | .continueLoop _ => []

/-- The leaves of some statements. -/
def Stmt.allLeaves : List Stmt → List Leaf
  | [] => []
  | first :: rest => first.leaves ++ Stmt.allLeaves rest

end

/-- The names and the literals of a program, in the order in which they are written. -/
def Program.leaves (program : Program) : List Leaf :=
  Stmt.allLeaves program.body

/-- The value of a literal is what its token denotes. -/
lemma Token.denotes_of_literalOf {token : Token} {value : Literal}
    (hkind : token.kind ∈ [TokenKind.integer, .float, .char, .kwTrue, .kwFalse])
    (h : Parser.literalOf token = .ok value) : token.Denotes (.literal value) := by
  obtain ⟨kind, text, line⟩ := token
  simp only [List.mem_cons, List.not_mem_nil, or_false] at hkind
  obtain rfl | rfl | rfl | rfl | rfl := hkind
  · simp only [Parser.literalOf] at h
    split at h
    · next hlimit =>
      cases h
      exact .int line (Int64.toInt_ofNat_of_lt hlimit) hlimit
    · cases h
  · simp only [Parser.literalOf] at h
    split at h
    · next hvalue =>
      cases h
      exact .float line hvalue
    · cases h
  · simp only [Parser.literalOf] at h
    split at h
    · next hvalue =>
      cases h
      exact .char line hvalue
    · cases h
  · cases h
    exact .bool true text line
  · cases h
    exact .bool false text line

namespace Grammar

/-! ## Leaves in texts -/

/-- The names and the literals among the tokens denote the leaves, one by one. -/
def HasLeaves (ts : List Token) (leaves : List Leaf) : Prop :=
  List.Forall₂ Token.Denotes (ts.filter (·.kind.isLeaf)) leaves

variable {ts ts' : List Token} {leaves leaves' : List Leaf} {kind : TokenKind}

lemma hasLeaves_nil : HasLeaves [] [] :=
  .nil

lemma HasLeaves.append (h : HasLeaves ts leaves) (h' : HasLeaves ts' leaves') :
    HasLeaves (ts ++ ts') (leaves ++ leaves') := by
  rw [HasLeaves, List.filter_append]
  exact List.rel_append h h'

/-- Other tokens do not matter. -/
lemma HasLeaves.cons (h : HasLeaves ts leaves) (word : Word kind) (hkind : kind.isLeaf = false) :
    HasLeaves (word.1 :: ts) leaves := by
  rw [HasLeaves, List.filter_cons_of_neg (by rw [word.2, hkind]; decide)]
  exact h

lemma HasLeaves.snoc (h : HasLeaves ts leaves) (word : Word kind) (hkind : kind.isLeaf = false) :
    HasLeaves (ts ++ [word.1]) leaves := by
  simpa using h.append (hasLeaves_nil.cons word hkind)

lemma hasLeaves_singleton {token : Token} {leaf : Leaf} (hkind : token.kind.isLeaf = true)
    (h : token.Denotes leaf) : HasLeaves [token] [leaf] := by
  rw [HasLeaves, List.filter_singleton, hkind]
  exact .cons h .nil

lemma hasLeaves_ident (word : Word .name) : HasLeaves [word.1] [.name (ident word)] := by
  obtain ⟨⟨kind, text, line⟩, hkind⟩ := word
  obtain rfl : kind = .name := hkind
  exact hasLeaves_singleton rfl (.name text line)

lemma hasLeaves_optionalTokens (word : Option (Word .name)) :
    HasLeaves (optionalTokens word) ((word.map ident).toList.map .name) := by
  cases word with
  | none => exact hasLeaves_nil
  | some word => exact hasLeaves_ident word

lemma hasLeaves_literalValue (word : LiteralWord) (h : word.1.HasValue) :
    HasLeaves [word.1] [.literal (literalValue word)] := by
  have hleaf : ∀ kind ∈ [TokenKind.integer, .float, .char, .kwTrue, .kwFalse],
      kind.isLeaf = true := by decide
  exact hasLeaves_singleton (hleaf _ word.2)
    (Token.denotes_of_literalOf word.2 (Parser.literalOf_of_hasValue word h))

/-- Parentheses around a word do not matter. -/
lemma Wrapped.hasLeaves {α : Type} {text : α → Token} {leaf : α → Leaf}
    (hword : ∀ word, (text word).HasValue → HasLeaves [text word] [leaf word]) :
    ∀ w : Wrapped α, Legible (w.tokens text) → HasLeaves (w.tokens text) [leaf w.word]
  | .bare word, h => hword word (h _ (List.mem_singleton_self _))
  | .parens opening inner closing, h => by
    simp only [Wrapped.tokens, legible_cons, legible_append] at h
    exact ((inner.hasLeaves hword h.2.1).snoc closing rfl).cons opening rfl

/-! ## Leaves of derivations -/

mutual

theorem Tier.hasLeaves : ∀ {n : Nat} (d : Tier n), Legible d.tokens →
    HasLeaves d.tokens d.tree.leaves
  | _, .factor factor, h => factor.hasLeaves h
  | _, .tier first links, h => by
    rw [Tier.tokens, legible_append] at h
    exact links.hasLeaves h.2 (first.hasLeaves h.1)

/-- The leaves of what is to the left of the operators come first. -/
theorem Links.hasLeaves : ∀ {n : Nat} (d : Links n) {left : Expr} {ts : List Token},
    Legible d.tokens → HasLeaves ts left.leaves → HasLeaves (ts ++ d.tokens) (d.tree left).leaves
  | _, .nil, _, _, _, hleft => by simpa [Links.tokens, Links.tree] using hleft
  | _, .cons op _ sign right rest, left, ts, h, hleft => by
    simp only [Links.tokens, legible_cons, legible_append] at h
    have hsign : op.token.isLeaf = false := by cases op <;> rfl
    have hright := (right.hasLeaves h.2.1).cons sign hsign
    have hsum : HasLeaves (ts ++ sign.1 :: right.tokens)
        (Expr.binary op left right.tree sign.1.line).leaves := hleft.append hright
    have hrest := rest.hasLeaves h.2.2 hsum
    rw [List.append_assoc] at hrest
    exact hrest

theorem Factor.hasLeaves : ∀ d : Factor, Legible d.tokens → HasLeaves d.tokens d.tree.leaves
  | .signed op sign operand, h => by
    rw [Factor.tokens, legible_cons] at h
    have hsign : op.token.isLeaf = false := by cases op <;> rfl
    exact (operand.hasLeaves h.2).cons sign hsign
  | .primary primary, h => primary.hasLeaves h

theorem Primary.hasLeaves : ∀ d : Primary, Legible d.tokens → HasLeaves d.tokens d.tree.leaves
  | .literal word, h => hasLeaves_literalValue word (h _ (List.mem_singleton_self _))
  | .name word, _ => hasLeaves_ident word
  | .parens opening inner closing, h => by
    simp only [Primary.tokens, legible_cons, legible_append] at h
    exact ((inner.hasLeaves h.2.1).snoc closing rfl).cons opening rfl
  | .block block, h => block.hasLeaves h

theorem Block.hasLeaves : ∀ d : Block, Legible d.tokens →
    HasLeaves d.tokens (Stmt.allLeaves d.body)
  | .braces opening body closing, h => by
    simp only [Block.tokens, legible_cons, legible_append] at h
    exact ((body.hasLeaves h.2.1).snoc closing rfl).cons opening rfl

theorem Statements.hasLeaves : ∀ d : Statements, Legible d.tokens →
    HasLeaves d.tokens (Stmt.allLeaves d.tree)
  | .nil, _ => hasLeaves_nil
  | .cons first rest, h => by
    rw [Statements.tokens, legible_append] at h
    exact (first.hasLeaves h.1).append (rest.hasLeaves h.2)

theorem Statement.hasLeaves : ∀ d : Statement, Legible d.tokens →
    HasLeaves d.tokens d.tree.leaves
  | .print keyword value semi, h => by
    simp only [Statement.tokens, legible_cons, legible_append] at h
    exact ((value.hasLeaves h.2.1).snoc semi rfl).cons keyword rfl
  | .varDef keyword name ty sign value semi, h => by
    simp only [Statement.tokens, legible_cons, legible_append] at h
    have hvalue := ((value.hasLeaves h.2.2.2.2.1).snoc semi rfl).cons sign rfl
    have hbehind := (hasLeaves_optionalTokens ty).append hvalue
    exact ((hasLeaves_ident name).append hbehind).cons keyword rfl
  | .varDecl keyword name ty semi, _ =>
    ((hasLeaves_ident name).append ((hasLeaves_optionalTokens ty).snoc semi rfl)).cons keyword rfl
  | .constDef keyword name ty sign value semi, h => by
    simp only [Statement.tokens, legible_cons, legible_append] at h
    have hliteral := value.hasLeaves hasLeaves_literalValue h.2.2.2.2.1
    have hvalue := (hliteral.snoc semi rfl).cons sign rfl
    have hbehind := (hasLeaves_optionalTokens ty).append hvalue
    exact ((hasLeaves_ident name).append hbehind).cons keyword rfl
  | .assign target sign value semi, h => by
    simp only [Statement.tokens, legible_cons, legible_append] at h
    have htarget := target.hasLeaves (fun word _ => hasLeaves_ident word) h.1
    exact htarget.append (((value.hasLeaves h.2.2.1).snoc semi rfl).cons sign rfl)
  | .ifThen keyword test thenBlock, h => by
    simp only [Statement.tokens, legible_cons, legible_append] at h
    rw [Statement.tree, Stmt.leaves, Stmt.allLeaves, List.append_nil]
    exact ((test.hasLeaves h.2.1).append (thenBlock.hasLeaves h.2.2)).cons keyword rfl
  | .ifElse keyword test thenBlock otherwise elseBlock, h => by
    simp only [Statement.tokens, legible_cons, legible_append] at h
    obtain ⟨_, htest, hthen, _, helse⟩ := h
    have hbranches :=
      (thenBlock.hasLeaves hthen).append ((elseBlock.hasLeaves helse).cons otherwise rfl)
    exact ((test.hasLeaves htest).append hbranches).cons keyword rfl
  | .whileLoop keyword test body, h => by
    simp only [Statement.tokens, legible_cons, legible_append] at h
    exact ((test.hasLeaves h.2.1).append (body.hasLeaves h.2.2)).cons keyword rfl
  | .breakLoop keyword semi, _ => (hasLeaves_nil.cons semi rfl).cons keyword rfl
  | .continueLoop keyword semi, _ => (hasLeaves_nil.cons semi rfl).cons keyword rfl
  | .expr value semi, h => by
    simp only [Statement.tokens, legible_append] at h
    exact (value.hasLeaves h.1).snoc semi rfl

end

end Grammar

namespace Source

variable {source : String} {program : Program}

/-- At every depth what is parsed can be written: constants have literals as values, variables a
type or a value, names are words that are no keywords, and literals have no sign.  The names and
the literals are those of the text, in the same order: each one is what its own token denotes, so
that an integer is the number below `2 ^ 63` that the digits of its token denote. -/
theorem parsed_as_written (h : parse source = .done program) :
    program.Spelled ∧ ∃ (ts : List Token) (line : Nat),
      tokens source = .ok (ts ++ [.endOfInput line]) ∧
      List.Forall₂ Token.Denotes (ts.filter (·.kind.isLeaf)) program.leaves := by
  obtain ⟨d, line, htokens, _, legible, _, rfl⟩ := derivation_of_parse h
  exact ⟨spelled_of_parse h, d.tokens, line, htokens, d.hasLeaves legible⟩

/-- A constant with the greatest integer, in a block that stands for a value, in a loop. -/
theorem parsed_as_written_greatest :
    let source := "while true \x7b var b int = \x7b const c = 9223372036854775807; c; \x7d; \x7d"
    let program : Program := ⟨[.whileLoop (.literal (.bool true 1))
      [.varDef ⟨"b", 1⟩ (some ⟨"int", 1⟩)
        (.block [.constDef ⟨"c", 1⟩ none (.literal (.int 9223372036854775807 1)) 1,
          .expr (.name ⟨"c", 1⟩)] 1) 1] 1]⟩
    parse source = .done program ∧ program.Spelled ∧ ∃ (ts : List Token) (line : Nat),
      tokens source = .ok (ts ++ [.endOfInput line]) ∧
      List.Forall₂ Token.Denotes (ts.filter (·.kind.isLeaf)) program.leaves := by
  intro source program
  have hparse : parse source = .done program := by cbv
  exact ⟨hparse, parsed_as_written hparse⟩

end Source

end BlockLang
