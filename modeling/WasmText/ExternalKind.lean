/-!
# External kinds

What a module may import or export, with the codes of the binary format.
-/

namespace WasmText

/-- The kind of an import or export. -/
inductive ExternalKind where
  /-- A function. -/
  | func
  /-- A table. -/
  | table
  /-- A memory. -/
  | memory
  /-- A global. -/
  | global
  deriving DecidableEq, Repr

namespace ExternalKind

/-- Every kind, in the order of their codes. -/
def all : List ExternalKind :=
  [func, table, memory, global]

/-- The code that stands for a kind in the binary format. -/
def code : ExternalKind → Nat
  | func => 0
  | table => 1
  | memory => 2
  | global => 3

/-- The kind that a code stands for. -/
def ofCode? (code : Nat) : Option ExternalKind :=
  all.find? fun kind => kind.code == code

/-- The name of a kind. -/
def name : ExternalKind → String
  | func => "func"
  | table => "table"
  | memory => "memory"
  | global => "global"

/-- Reading a code back gives the kind that was written. -/
theorem ofCode?_code (kind : ExternalKind) : ofCode? kind.code = some kind := by
  cases kind <;> rfl

end ExternalKind

end WasmText
