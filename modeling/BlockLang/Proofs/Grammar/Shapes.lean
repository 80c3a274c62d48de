import BlockLang.Proofs.Grammar.Parsing
import BlockLang.Proofs.Program.Listing

/-!
# The shapes of assignments and constants

A statement of a program stands for a stretch of its text.  For an assignment this stretch begins
with the name that is assigned to and the sign behind it, and that of a constant ends with the sign
and the one literal that gives its value, except that the name and the literal may stand in
parentheses: the parser takes both from expressions, and a tree keeps no parentheses.
`Stmt.HasShape` is this shape with the number of parentheses, none of them in the notation
`NAME '=' expr ';'` and `'const' NAME [type] '=' literal ';'`.

A derivation has its statements at any depth in the same order as its tree
(`Grammar.Statements.listed_tree`).  So each statement of a program has its stretch of the text
(`Source.shaped_statements`).
-/

namespace BlockLang

open Grammar

/-! ## Statements at any depth -/

namespace Grammar

mutual

/-- The statements in a phrase. -/
def Tier.statements : {n : Nat} → Tier n → List Statement
  | _, .factor factor => factor.statements
  | _, .tier first links => first.statements ++ links.statements

def Links.statements : {n : Nat} → Links n → List Statement
  | _, .nil => []
  | _, .cons _ _ _ right rest => right.statements ++ rest.statements

def Factor.statements : Factor → List Statement
  | .signed _ _ operand => operand.statements
  | .primary primary => primary.statements

def Primary.statements : Primary → List Statement
  | .literal _ | .name _ => []
  | .parens _ inner _ => inner.statements
  | .block block => block.statements

def Block.statements : Block → List Statement
  | .braces _ body _ => body.listed

/-- Some statements, each with those inside of it. -/
def Statements.listed : Statements → List Statement
  | .nil => []
  | .cons first rest => first :: (first.inner ++ rest.listed)

/-- The statements inside of a statement. -/
def Statement.inner : Statement → List Statement
  | .print _ value _ | .varDef _ _ _ _ value _ | .assign _ _ value _ | .expr value _ =>
    value.statements
  | .ifThen _ test thenBlock => test.statements ++ thenBlock.statements
  | .ifElse _ test thenBlock _ elseBlock =>
    test.statements ++ (thenBlock.statements ++ elseBlock.statements)
  | .whileLoop _ test body => test.statements ++ body.statements
  | .varDecl .. | .constDef .. | .breakLoop .. | .continueLoop .. => []

end

/-! ## Their trees -/

mutual

lemma Tier.statements_tree : ∀ {n : Nat} (d : Tier n),
    d.tree.statements = d.statements.map Statement.tree
  | _, .factor factor => factor.statements_tree
  | _, .tier first links => by
    rw [Tier.tree, links.statements_tree, first.statements_tree, Tier.statements, List.map_append]

lemma Links.statements_tree : ∀ {n : Nat} (d : Links n) (left : Expr),
    (d.tree left).statements = left.statements ++ d.statements.map Statement.tree
  | _, .nil, left => (List.append_nil _).symm
  | _, .cons _ _ _ right rest, left => by
    rw [Links.tree, rest.statements_tree, Expr.statements, right.statements_tree, Links.statements,
      List.map_append, List.append_assoc]

lemma Factor.statements_tree : ∀ d : Factor,
    d.tree.statements = d.statements.map Statement.tree
  | .signed _ _ operand => operand.statements_tree
  | .primary primary => primary.statements_tree

lemma Primary.statements_tree : ∀ d : Primary,
    d.tree.statements = d.statements.map Statement.tree
  | .literal _ | .name _ => rfl
  | .parens _ inner _ => inner.statements_tree
  | .block block => block.listed_body

lemma Block.listed_body : ∀ d : Block, Stmt.listed d.body = d.statements.map Statement.tree
  | .braces _ body _ => body.listed_tree

lemma Statements.listed_tree (d : Statements) :
    Stmt.listed d.tree = d.listed.map Statement.tree := by
  cases d with
  | nil => rfl
  | cons first rest =>
    rw [Statements.tree, Stmt.listed, first.inner_tree, rest.listed_tree, Statements.listed,
      List.map_cons, List.map_append]

lemma Statement.inner_tree : ∀ d : Statement, d.tree.inner = d.inner.map Statement.tree
  | .print _ value _ | .varDef _ _ _ _ value _ | .assign _ _ value _ | .expr value _ =>
    value.statements_tree
  | .ifThen _ test thenBlock => by
    rw [Statement.tree, Stmt.inner, test.statements_tree, thenBlock.listed_body, Statement.inner,
      List.map_append, Stmt.listed, List.append_nil]
  | .ifElse _ test thenBlock _ elseBlock => by
    rw [Statement.tree, Stmt.inner, test.statements_tree, thenBlock.listed_body,
      elseBlock.listed_body, Statement.inner, List.map_append, List.map_append]
  | .whileLoop _ test body => by
    rw [Statement.tree, Stmt.inner, test.statements_tree, body.listed_body, Statement.inner,
      List.map_append]
  | .varDecl .. | .constDef .. | .breakLoop .. | .continueLoop .. => rfl

end

/-! ## Their stretches of the text -/

/-- Each of the statements has a stretch of the text. -/
def Cover (ts : List Token) (statements : List Statement) : Prop :=
  ∀ s ∈ statements, s.tokens <:+: ts

variable {ts ts' : List Token} {statements statements' : List Statement}

lemma cover_nil (ts : List Token) : Cover ts [] :=
  List.forall_mem_nil _

lemma Cover.cons (h : Cover ts statements) (token : Token) : Cover (token :: ts) statements :=
  fun s hs => List.infix_cons (h s hs)

lemma Cover.append_left (h : Cover ts statements) (ts' : List Token) :
    Cover (ts ++ ts') statements :=
  fun s hs => (h s hs).trans (List.prefix_append ts ts').isInfix

lemma Cover.append_right (h : Cover ts' statements) (ts : List Token) :
    Cover (ts ++ ts') statements :=
  fun s hs => (h s hs).trans (List.suffix_append ts ts').isInfix

lemma Cover.append (h : Cover ts statements) (h' : Cover ts' statements') :
    Cover (ts ++ ts') (statements ++ statements') :=
  List.forall_mem_append.mpr ⟨h.append_left ts', h'.append_right ts⟩

mutual

lemma Tier.cover : ∀ {n : Nat} (d : Tier n), Cover d.tokens d.statements
  | _, .factor factor => factor.cover
  | _, .tier first links => first.cover.append links.cover

lemma Links.cover : ∀ {n : Nat} (d : Links n), Cover d.tokens d.statements
  | _, .nil => cover_nil _
  | _, .cons _ _ sign right rest => (right.cover.append rest.cover).cons sign.1

lemma Factor.cover : ∀ d : Factor, Cover d.tokens d.statements
  | .signed _ sign operand => operand.cover.cons sign.1
  | .primary primary => primary.cover

lemma Primary.cover : ∀ d : Primary, Cover d.tokens d.statements
  | .literal _ | .name _ => cover_nil _
  | .parens opening inner closing => (inner.cover.append_left [closing.1]).cons opening.1
  | .block block => block.cover

lemma Block.cover : ∀ d : Block, Cover d.tokens d.statements
  | .braces opening body closing => (body.cover.append_left [closing.1]).cons opening.1

lemma Statements.cover (d : Statements) : Cover d.tokens d.listed := by
  cases d with
  | nil => exact cover_nil _
  | cons first rest =>
    exact List.forall_mem_cons.mpr
      ⟨(List.prefix_append _ _).isInfix, first.cover.append rest.cover⟩

lemma Statement.cover : ∀ d : Statement, Cover d.tokens d.inner
  | .print keyword value semi => (value.cover.append_left [semi.1]).cons keyword.1
  | .varDef keyword name ty sign value semi =>
    ((((value.cover.append_left [semi.1]).cons sign.1).append_right (optionalTokens ty)).cons
      name.1).cons keyword.1
  | .assign _ sign value semi =>
    ((value.cover.append_left [semi.1]).cons sign.1).append_right _
  | .ifThen keyword test thenBlock => (test.cover.append thenBlock.cover).cons keyword.1
  | .ifElse keyword test thenBlock otherwise elseBlock =>
    (test.cover.append (thenBlock.cover.append (elseBlock.cover.cons otherwise.1))).cons keyword.1
  | .whileLoop keyword test body => (test.cover.append body.cover).cons keyword.1
  | .expr value semi => value.cover.append_left [semi.1]
  | .varDecl .. | .constDef .. | .breakLoop .. | .continueLoop .. => cover_nil _

end

/-! ## Words in parentheses -/

/-- A token in a number of parentheses. -/
def InParens (count : Nat) (inner : Token) (ts : List Token) : Prop :=
  ∃ opening closing, ts = opening ++ inner :: closing ∧
    opening.map Token.kind = List.replicate count .lparen ∧
    closing.map Token.kind = List.replicate count .rparen

lemma inParens_zero {inner : Token} : InParens 0 inner ts ↔ ts = [inner] := by
  constructor
  · rintro ⟨opening, closing, rfl, hopening, hclosing⟩
    rw [List.map_eq_nil_iff.mp hopening, List.map_eq_nil_iff.mp hclosing, List.nil_append]
  · rintro rfl
    exact ⟨[], [], rfl, rfl, rfl⟩

lemma Wrapped.inParens {α : Type} (text : α → Token) : ∀ w : Wrapped α,
    ∃ count, InParens count (text w.word) (w.tokens text)
  | .bare word => ⟨0, inParens_zero.mpr rfl⟩
  | .parens first inner last => by
    obtain ⟨count, opening, closing, htokens, hopening, hclosing⟩ := inner.inParens text
    refine ⟨count + 1, first.1 :: opening, closing ++ [last.1], ?_, ?_, ?_⟩
    · rw [Wrapped.tokens, htokens]
      simp [Wrapped.word]
    · rw [List.map_cons, hopening, first.2, List.replicate_succ]
    · rw [List.map_append, hclosing, List.map_singleton, last.2, ← List.replicate_succ']

/-- How many parentheses there are shows in front. -/
lemma InParens.count_eq {count : Nat} {inner : Token} (h : InParens count inner ts)
    (hinner : inner.kind ≠ .lparen) (behind : List Token) :
    count = ((ts ++ behind).takeWhile (·.kind = .lparen)).length := by
  obtain ⟨opening, closing, rfl, hopening, -⟩ := h
  have hall : ∀ token ∈ opening, decide (token.kind = .lparen) = true := by
    intro token hmem
    have hkind : token.kind ∈ opening.map Token.kind := List.mem_map_of_mem hmem
    rw [hopening] at hkind
    exact decide_eq_true (List.eq_of_mem_replicate hkind)
  rw [List.append_assoc, List.takeWhile_append_of_pos hall, List.cons_append,
    List.takeWhile_cons_of_neg (by simpa using hinner), List.append_nil]
  have hlength := congrArg List.length hopening
  rwa [List.length_map, List.length_replicate, eq_comm] at hlength

end Grammar

/-! ## Shapes -/

/-- The name that is assigned to stands in front of the sign, in a number of parentheses. -/
def Stmt.AssignShape (count : Nat) (target : Ident) (ts : List Token) : Prop :=
  ∃ (name sign : Token) (written behind : List Token), ts = written ++ sign :: behind ∧
    InParens count name written ∧ name.kind = .name ∧ (⟨name.text, name.line⟩ : Ident) = target ∧
    sign.kind = .assign

/-- A literal stands between the sign and the semicolon, in a number of parentheses. -/
def Stmt.ConstShape (count : Nat) (ty : Option Ident) (value : Expr) (ts : List Token) : Prop :=
  ∃ (header written : List Token) (sign word semi : Token),
    ts = header ++ sign :: (written ++ [semi]) ∧
    header.map Token.kind = .kwConst :: .name :: (ty.map fun _ => .name).toList ∧
    sign.kind = .assign ∧ InParens count word written ∧
    word.kind ∈ [TokenKind.integer, .float, .char, .kwTrue, .kwFalse] ∧
    (∃ literal, Parser.literalOf word = .ok literal ∧ value = .literal literal) ∧
    semi.kind = .semi

/-- The stretch of text of an assignment and of a constant, with the number of parentheses around
the name or the literal.  There is nothing of the kind in other statements. -/
def Stmt.HasShape (count : Nat) : Stmt → List Token → Prop
  | .assign target _ _, ts => Stmt.AssignShape count target ts
  | .constDef _ ty value _, ts => Stmt.ConstShape count ty value ts
  | _, _ => count = 0

lemma Stmt.AssignShape.count_eq {count : Nat} {target : Ident} {ts : List Token}
    (h : Stmt.AssignShape count target ts) :
    count = (ts.takeWhile (·.kind = .lparen)).length := by
  obtain ⟨name, sign, written, behind, rfl, hwritten, hname, -⟩ := h
  exact hwritten.count_eq (by rw [hname]; decide) (sign :: behind)

lemma Stmt.ConstShape.count_eq {count : Nat} {ty : Option Ident} {value : Expr} {ts : List Token}
    (h : Stmt.ConstShape count ty value ts) :
    count = ((ts.drop (ty.toList.length + 3)).takeWhile (·.kind = .lparen)).length := by
  obtain ⟨header, written, sign, word, semi, rfl, hheader, -, hwritten, hword, -⟩ := h
  have hlength : header.length + 1 = ty.toList.length + 3 := by
    have hkinds := congrArg List.length hheader
    cases ty <;> simpa using hkinds
  have hne : word.kind ≠ .lparen := by
    intro heq
    rw [heq] at hword
    exact absurd hword (by decide)
  rw [← hlength, List.drop_length_add_append, List.drop_one, List.tail_cons]
  exact hwritten.count_eq hne [semi]

/-- There is one number of parentheses. -/
lemma Stmt.HasShape.count_unique {count count' : Nat} {s : Stmt} {ts : List Token}
    (h : s.HasShape count ts) (h' : s.HasShape count' ts) : count = count' := by
  cases s with
  | assign target value line => exact (AssignShape.count_eq h).trans (AssignShape.count_eq h').symm
  | constDef name ty value line =>
    exact (ConstShape.count_eq h).trans (ConstShape.count_eq h').symm
  | _ => exact Eq.trans h (Eq.symm h')

/-- A statement that can be read has the shape of its kind. -/
lemma Grammar.Statement.hasShape {s : Statement} (legible : Legible s.tokens) :
    ∃ count, s.tree.HasShape count s.tokens := by
  cases s with
  | assign target sign value semi =>
    obtain ⟨count, htarget⟩ := target.inParens (·.1)
    exact ⟨count, target.word.1, sign.1, _, _, rfl, htarget, target.word.2, rfl, sign.2⟩
  | constDef keyword name ty sign value semi =>
    obtain ⟨count, hvalue⟩ := value.inParens (·.1)
    have hread : value.word.1.HasValue := by
      refine legible _ ?_
      obtain ⟨opening, closing, htokens, -⟩ := hvalue
      rw [Statement.tokens, htokens]
      simp
    refine ⟨count, keyword.1 :: name.1 :: optionalTokens ty, _, sign.1, value.word.1, semi.1, rfl,
      ?_, sign.2, hvalue, value.word.2, ⟨_, Parser.literalOf_of_hasValue _ hread, rfl⟩, semi.2⟩
    cases ty with
    | none => simp [optionalTokens, keyword.2, name.2]
    | some ty => simp [optionalTokens, keyword.2, name.2, ty.2]
  | _ => exact ⟨0, rfl⟩

namespace Source

variable {source : String} {program : Program}

/-- The statements of a program, at any depth, have their stretches of the text.  An assignment
begins with the name of its target and the sign, and the value of a constant is one literal between
the sign and the semicolon, up to the parentheses around the name and the literal.  Their number is
determined by the text, and the notation is the documented one if it is zero. -/
theorem shaped_statements (h : parse source = .done program) :
    ∃ (d : Statements) (line : Nat), tokens source = .ok (d.tokens ++ [.endOfInput line]) ∧
      program.statements = d.listed.map Statement.tree ∧
      ∀ s ∈ d.listed, s.tokens <:+: d.tokens ∧ ∃! count, s.tree.HasShape count s.tokens := by
  obtain ⟨d, line, htokens, -, legible, -, rfl⟩ := derivation_of_parse h
  refine ⟨d, line, htokens, d.listed_tree, fun s hs => ?_⟩
  have hstretch := d.cover s hs
  have hlegible : Legible s.tokens := fun token hmem => legible token (hstretch.subset hmem)
  obtain ⟨count, hshape⟩ := s.hasShape hlegible
  exact ⟨hstretch, count, hshape, fun count' h' => h'.count_unique hshape⟩

/-- In a loop inside of an expression, with parentheses around the name. -/
theorem shaped_statements_inner :
    ∃ (d : Statements) (line : Nat),
      tokens "\x7b while a \x7b (b) = 1; \x7d c; \x7d;" = .ok (d.tokens ++ [.endOfInput line]) ∧
      ∃ s ∈ d.listed, s.tree = .assign ⟨"b", 1⟩ (.literal (.int 1 1)) 1 ∧
        s.tokens <:+: d.tokens ∧ ∃! count, s.tree.HasShape count s.tokens := by
  have hparse : parse "\x7b while a \x7b (b) = 1; \x7d c; \x7d;" =
      .done ⟨[.expr (.block [.whileLoop (.name ⟨"a", 1⟩)
        [.assign ⟨"b", 1⟩ (.literal (.int 1 1)) 1] 1, .expr (.name ⟨"c", 1⟩)] 1)]⟩ := by cbv
  obtain ⟨d, line, htokens, hlisted, hshaped⟩ := shaped_statements hparse
  have hmem : Stmt.assign ⟨"b", 1⟩ (.literal (.int 1 1)) 1 ∈ d.listed.map Statement.tree := by
    rw [← hlisted]
    simp [Program.statements, Stmt.listed, Stmt.inner, Expr.statements]
  obtain ⟨s, hs, htree⟩ := List.mem_map.mp hmem
  exact ⟨d, line, htokens, s, hs, htree, hshaped s hs⟩

/-- A name in parentheses is assigned to, and the value of a constant is a literal in parentheses:
neither is the documented notation. -/
theorem shape_in_parentheses :
    (parse "(x) = 1;" = .done ⟨[.assign ⟨"x", 1⟩ (.literal (.int 1 1)) 1]⟩ ∧
      ∃ ts, tokens "(x) = 1;" = .ok (ts ++ [.endOfInput 1]) ∧
        ¬ (Stmt.assign ⟨"x", 1⟩ (.literal (.int 1 1)) 1).HasShape 0 ts) ∧
    parse "const c = (1);" = .done ⟨[.constDef ⟨"c", 1⟩ none (.literal (.int 1 1)) 1]⟩ ∧
      ∃ ts, tokens "const c = (1);" = .ok (ts ++ [.endOfInput 1]) ∧
        ¬ (Stmt.constDef ⟨"c", 1⟩ none (.literal (.int 1 1)) 1).HasShape 0 ts := by
  refine ⟨⟨by cbv, [⟨.lparen, "(", 1⟩, ⟨.name, "x", 1⟩, ⟨.rparen, ")", 1⟩, ⟨.assign, "=", 1⟩,
    ⟨.integer, "1", 1⟩, ⟨.semi, ";", 1⟩], by cbv, fun hshape => ?_⟩, by cbv,
    [⟨.kwConst, "const", 1⟩, ⟨.name, "c", 1⟩, ⟨.assign, "=", 1⟩, ⟨.lparen, "(", 1⟩,
      ⟨.integer, "1", 1⟩, ⟨.rparen, ")", 1⟩, ⟨.semi, ";", 1⟩], by cbv, fun hshape => ?_⟩
  · have hcount := Stmt.AssignShape.count_eq hshape
    exact absurd hcount (by decide)
  · have hcount := Stmt.ConstShape.count_eq hshape
    exact absurd hcount (by decide)

end Source

end BlockLang
