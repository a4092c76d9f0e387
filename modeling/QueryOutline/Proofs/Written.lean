import QueryOutline.Grammar.Definition

/-!
Written documents: the grammar of operations as data, with the tokens that spell
a document and the nodes that it denotes. Names and scalars carry the proof that
they are well formed, and a selection set holds at least one selection, so that
every value of these types is a document of the grammar.
-/

namespace QueryOutline

namespace Written

def isNameStart (c : Char) : Bool :=
  c.isAlpha || c == '_'

def isName (s : String) : Bool :=
  match s.toList with
  | c :: cs => isNameStart c && cs.all fun d => isNameStart d || d.isDigit
  | [] => false

structure Name where
  text : String
  isName_text : isName text = true

/-- A word has no separator, no punctuation and no quote in it. -/
def isWord (t : Token) : Bool :=
  !t.isEmpty && t.toList.all fun c =>
    !Token.isSeparator c && !Token.isPunctuation c && !Token.isQuote c

/-- Whether a literal ends with these characters and not before: the first
delimiter that does not follow a backslash is the last character. -/
def closesAtEnd (delimiter : Char) (afterBackslash : Bool) : List Char → Bool
  | [] => false
  | c :: cs =>
      if c = delimiter && !afterBackslash then cs.isEmpty
      else closesAtEnd delimiter (c == '\\') cs

def isClosedLiteral (t : Token) : Bool :=
  match t.toList with
  | c :: cs => Token.isQuote c && closesAtEnd c false cs
  | [] => false

def isScalar (t : Token) : Bool :=
  isWord t || isClosedLiteral t

structure Scalar where
  text : Token
  isScalar_text : isScalar text = true

mutual

inductive Value where
  | scalar (s : Scalar)
  | variableName (name : Name)
  | list (items : Values)
  | object (members : Members)

inductive Values where
  | nil
  | cons (first : Value) (others : Values)

inductive Members where
  | nil
  | cons (name : Name) (value : Value) (others : Members)

end

inductive TypeName where
  | named (name : Name)
  | list (item : TypeName)
  | required (type : TypeName)

structure Argument where
  name : Name
  value : Value

/-- Without arguments there are no parentheses. -/
structure Directive where
  name : Name
  arguments : List Argument := []

structure VariableDefinition where
  name : Name
  type : TypeName
  defaultValue : Option Scalar := none

/-- A field up to its selection set. -/
structure Field where
  aliasName : Option Name := none
  name : Name
  arguments : List Argument := []
  directives : List Directive := []

/-- The beginning of an inline fragment: three dots, which may have a type
condition behind them or the word `on` attached to them. -/
inductive Opening where
  | bare
  | apart (type : Name)
  | attached (type : Name)

mutual

inductive Selection where
  | leaf (field : Field)
  | field (field : Field) (block : Block)
  | spread (isAttached : Bool) (name : Name) (ne_on : name.text ≠ "on")
  | inlineFragment (opening : Opening) (block : Block)

/-- The selections of a selection set, at least one. -/
inductive Block where
  | last (selection : Selection)
  | cons (first : Selection) (others : Block)

end

inductive Definition where
  | operation (type : OperationType) (name : Option Name)
      (variableDefinitions : List VariableDefinition) (block : Block)
  | bare (block : Block)
  | fragment (name type : Name) (block : Block)

/-! The tokens that spell a document. -/

mutual

def Value.tokens : Value → List Token
  | .scalar s => [s.text]
  | .variableName name => ["$", name.text]
  | .list items => "[" :: (items.tokens ++ ["]"])
  | .object members => "\x7b" :: (members.tokens ++ ["\x7d"])

def Values.tokens : Values → List Token
  | .nil => []
  | .cons first others => first.tokens ++ others.tokens

def Members.tokens : Members → List Token
  | .nil => []
  | .cons name value others => name.text :: ":" :: (value.tokens ++ others.tokens)

end

def TypeName.tokens : TypeName → List Token
  | .named name => [name.text]
  | .list item => "[" :: (item.tokens ++ ["]"])
  | .required type => type.tokens ++ ["!"]

def parenthesized {α : Type} (spell : α → List Token) : List α → List Token
  | [] => []
  | entries => "(" :: (entries.flatMap spell ++ [")"])

def Argument.tokens (a : Argument) : List Token :=
  a.name.text :: ":" :: a.value.tokens

def Directive.tokens (d : Directive) : List Token :=
  "@" :: d.name.text :: parenthesized Argument.tokens d.arguments

def VariableDefinition.tokens (v : VariableDefinition) : List Token :=
  "$" :: v.name.text :: ":" :: (v.type.tokens ++ match v.defaultValue with
    | some s => ["=", s.text]
    | none => [])

def Field.label (f : Field) : List Token :=
  match f.aliasName with
  | some a => [a.text, ":", f.name.text]
  | none => [f.name.text]

def Field.tokens (f : Field) : List Token :=
  f.label ++ parenthesized Argument.tokens f.arguments ++ f.directives.flatMap Directive.tokens

def Opening.tokens : Opening → List Token
  | .bare => ["..."]
  | .apart type => ["...", "on", type.text]
  | .attached type => ["...on", type.text]

mutual

def Selection.tokens : Selection → List Token
  | .leaf field => field.tokens
  | .field field block => field.tokens ++ "\x7b" :: (block.tokens ++ ["\x7d"])
  | .spread isAttached name _ =>
      if isAttached then ["..." ++ name.text] else ["...", name.text]
  | .inlineFragment opening block => opening.tokens ++ "\x7b" :: (block.tokens ++ ["\x7d"])

def Block.tokens : Block → List Token
  | .last selection => selection.tokens
  | .cons first others => first.tokens ++ others.tokens

end

def Definition.tokens : Definition → List Token
  | .operation type name variableDefinitions block =>
      type.text :: (name.toList.map Name.text ++
        parenthesized VariableDefinition.tokens variableDefinitions ++
        "\x7b" :: (block.tokens ++ ["\x7d"]))
  | .bare block => "\x7b" :: (block.tokens ++ ["\x7d"])
  | .fragment name type block =>
      "fragment" :: name.text :: "on" :: type.text :: "\x7b" :: (block.tokens ++ ["\x7d"])

/-! The nodes that a document denotes. -/

def Argument.node (a : Argument) : QueryOutline.Argument :=
  ⟨a.name.text, joinValue a.value.tokens⟩

def Directive.node (d : Directive) : QueryOutline.Directive :=
  ⟨d.name.text, d.arguments.map Argument.node⟩

/-- The type is kept as its tokens without anything between them. -/
def VariableDefinition.node (v : VariableDefinition) : QueryOutline.VariableDefinition :=
  ⟨v.name.text, String.join v.type.tokens, v.defaultValue.map Scalar.text⟩

def Field.head (f : Field) : Head :=
  { kind := .field, name := some f.name.text, aliasName := f.aliasName.map Name.text
    arguments := f.arguments.map Argument.node
    directives := f.directives.map Directive.node }

def Opening.head : Opening → Head
  | .bare => { kind := .inlineFragment }
  | .apart type | .attached type => { kind := .inlineFragment, typeCondition := some type.text }

/-- A forest below a node, as far as a number of levels still allows. -/
def expanded (nodes : Nat → List Node) : Nat → Forest Head
  | 0 => .nil
  | levels + 1 => .ofList (nodes levels)

mutual

def Selection.node : Selection → Nat → Node
  | .leaf field, _ => ⟨field.head, .nil⟩
  | .field field block, levels => ⟨field.head, expanded (fun n => block.nodes n) levels⟩
  | .spread _ name _, _ => ⟨{ kind := .fragment, name := some name.text }, .nil⟩
  | .inlineFragment opening block, levels =>
      ⟨opening.head, expanded (fun n => block.nodes n) levels⟩

/-- The nodes of the selections, when their own selection sets have a number of
levels left. -/
def Block.nodes : Block → Nat → List Node
  | .last selection, levels => [selection.node levels]
  | .cons first others, levels => first.node levels :: others.nodes levels

end

/-- The forest of a selection set with a number of levels left. Without any, its
selections leave no trace. -/
def Block.forest (block : Block) : Nat → Forest Head :=
  expanded block.nodes

def Definition.node : Definition → Node
  | .operation type name variableDefinitions block =>
      ⟨{ kind := .operation, operationType := some type, name := name.map Name.text
         variableDefinitions := variableDefinitions.map VariableDefinition.node },
        block.forest maxNestingDepth⟩
  | .bare block =>
      ⟨{ kind := .operation, operationType := some .query }, block.forest maxNestingDepth⟩
  | .fragment name type block =>
      ⟨{ kind := .fragment, name := some name.text, typeCondition := some type.text },
        block.forest maxNestingDepth⟩

end Written

end QueryOutline
