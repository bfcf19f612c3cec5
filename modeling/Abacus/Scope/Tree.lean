import Abacus.Attempt
import Abacus.Fault
import Abacus.Program.Basic

/-!
# Scope trees

Scopes nest in one another. They are kept in the order of their creation, the global one first, and
know their parent by its place in that order, which is always before their own. A cursor marks the
current scope: names are declared there and looked up there and outwards, never in children.

Every operation answers together with the tree it leaves.
-/

namespace Abacus

/-- What is known of a declared name. -/
structure Symbol where
  type : NumType
  assigned : Bool := false
  value : Option String := none
deriving DecidableEq, Repr

/-- A scope: its name, its parent, its symbols in order of declaration, and its children by name. -/
structure Scope where
  name : String
  parent : Option Nat
  symbols : List (String × Symbol) := []
  children : List (String × Nat) := []
deriving DecidableEq, Repr

namespace Scope

/-- The outermost scope before any declaration. -/
def global : Scope := { name := "GLOBAL", parent := none }

/-- The symbol of a name declared here. -/
def symbol? (s : Scope) (name : String) : Option Symbol := s.symbols.lookup name

/-- Whether a name is declared here. -/
def declares (s : Scope) (name : String) : Bool := (s.symbol? name).isSome

/-- The child of a name. -/
def child? (s : Scope) (name : String) : Option Nat := s.children.lookup name

/-- Adds a symbol under a new name. -/
def declare (s : Scope) (name : String) (symbol : Symbol) : Scope :=
  { s with symbols := s.symbols ++ [(name, symbol)] }

/-- Changes the symbol of a name. -/
def update (s : Scope) (name : String) (f : Symbol → Symbol) : Scope :=
  { s with symbols := s.symbols.map fun (n, symbol) => (n, if n = name then f symbol else symbol) }

/-- Adds a child under a new name. -/
def adopt (s : Scope) (name : String) (id : Nat) : Scope :=
  { s with children := s.children ++ [(name, id)] }

end Scope

/-- Scopes in order of creation, and the current one. -/
structure ScopeTree where
  scopes : Array Scope := #[Scope.global]
  current : Nat := 0
deriving DecidableEq, Repr

namespace ScopeTree

/-- The global scope alone. -/
def initial : ScopeTree := {}

/-- The number of scopes. -/
def size (t : ScopeTree) : Nat := t.scopes.size

/-- Whether there is no scope. -/
def isEmpty (t : ScopeTree) : Bool := t.scopes.isEmpty

/-- The scope of an id. -/
def scope? (t : ScopeTree) (id : Nat) : Option Scope := t.scopes[id]?

/-- The outermost scope. -/
def root (t : ScopeTree) : Scope := (t.scope? 0).getD .global

/-- The scope under the cursor. -/
def currentScope (t : ScopeTree) : Scope := (t.scope? t.current).getD .global

/-! ## Lookup -/

/-- A scope and the scopes around it, from the inside out. -/
def ancestors (t : ScopeTree) (id : Nat) : List Nat :=
  match t.scope? id with
  | none => []
  | some scope =>
    match scope.parent with
    | none => [id]
    | some parent => if parent < id then id :: ancestors t parent else [id]
termination_by id

/-- Whether a scope declares a name. -/
def declaresAt (t : ScopeTree) (name : String) (id : Nat) : Bool :=
  (t.scope? id).any (·.declares name)

/-- The innermost scope around `id` that declares a name. -/
def resolveFrom? (t : ScopeTree) (id : Nat) (name : String) : Option Nat :=
  (t.ancestors id).find? (t.declaresAt name)

/-- The innermost scope that declares a name visible from the cursor. -/
def resolve? (t : ScopeTree) (name : String) : Option Nat := t.resolveFrom? t.current name

/-- The symbol that a name stands for under the cursor. -/
def lookup? (t : ScopeTree) (name : String) : Option Symbol := do
  let id ← t.resolve? name
  let scope ← t.scope? id
  scope.symbol? name

/-- The symbol that the current scope itself has for a name. -/
def lookupLocal? (t : ScopeTree) (name : String) : Option Symbol := t.currentScope.symbol? name

/-! ## Changes -/

/-- Changes one scope. -/
def modify (t : ScopeTree) (id : Nat) (f : Scope → Scope) : ScopeTree :=
  { t with scopes := t.scopes.modify id f }

/-- Declares a name in the current scope. -/
def define (t : ScopeTree) (name : String) (type : NumType) : Attempt Fault ScopeTree Unit :=
  match t.lookupLocal? name with
  | some _ => (.error (.redeclared name), t)
  | none => (.ok (), t.modify t.current (·.declare name { type }))

/-- Changes the symbol that a name stands for. -/
def updateSymbol (t : ScopeTree) (name : String) (f : Symbol → Symbol) :
    Attempt Fault ScopeTree Unit :=
  match t.resolve? name with
  | some id => (.ok (), t.modify id (·.update name f))
  | none => (.error (.undeclared name), t)

/-- Notes that a name is assigned. -/
def markAssigned (t : ScopeTree) (name : String) : Attempt Fault ScopeTree Unit :=
  t.updateSymbol name fun symbol => { symbol with assigned := true }

/-- Records a value for a name, and that it is assigned. -/
def bind (t : ScopeTree) (name value : String) : Attempt Fault ScopeTree Unit :=
  (t.updateSymbol name fun symbol => { symbol with value := some value }).andThen fun _ t =>
    t.markAssigned name

/-- Adds a child to the current scope and gives its id. -/
def addScope (t : ScopeTree) (name : String) : Attempt Fault ScopeTree Nat :=
  match t.currentScope.child? name with
  | some _ => (.error (.duplicateScope name), t)
  | none =>
    let id := t.size
    let grown := { t with scopes := t.scopes.push { name, parent := some t.current } }
    (.ok id, grown.modify t.current (·.adopt name id))

/-- Moves into a child of the current scope. -/
def enterScope (t : ScopeTree) (name : String) : Attempt Fault ScopeTree Unit :=
  match t.currentScope.child? name with
  | some id => (.ok (), { t with current := id })
  | none => (.error (.unknownScope name), t)

/-- Moves out to the parent of the current scope. -/
def exitScope (t : ScopeTree) : Attempt Fault ScopeTree Unit :=
  match t.currentScope.parent with
  | some parent => (.ok (), { t with current := parent })
  | none => (.error .exitRoot, t)

end ScopeTree

end Abacus
