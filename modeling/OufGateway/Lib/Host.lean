import Mathlib

/-!
# The files of a host

What a program sees of a POSIX file system it reads and adds files to: the entries
by their paths, a path being the names from the root on. A path is followed through
symbolic links, also those in the middle of it, and `os.stat` and opening a file
look at where it leads. A file is created only where nothing is (`O_EXCL`). A file
whose bytes are not UTF-8 has no text.
-/

namespace OufGateway.Lib

abbrev Path := List String

namespace Path

def parent (p : Path) : Path := p.dropLast

def name (p : Path) : String := p.getLast?.getD ""

def child (p : Path) (name : String) : Path := p ++ [name]

/-- `str(p)`. -/
def text (p : Path) : String := "/" ++ "/".intercalate p

end Path

inductive NodeKind
  | directory
  | file (text : Option (List Char))
  | link (target : Path)
deriving DecidableEq

structure Node where
  uid : Nat
  gid : Nat
  mode : Nat
  size : Nat
  kind : NodeKind
deriving DecidableEq

def Node.isLink (n : Node) : Bool :=
  match n.kind with
  | .link _ => true
  | _ => false

structure Host where
  nodes : List (Path × Node)

namespace Host

variable (h : Host)

/-- `os.lstat`. -/
def lstat (p : Path) : Option Node := (h.nodes.find? (·.1 = p)).map (·.2)

/-- Where the rest of a path leads from a directory that was reached. -/
def walk : Nat → Path → Path → Option Path
  | _, reached, [] => some reached
  | 0, _, _ :: _ => none
  | steps + 1, reached, name :: rest =>
    match h.lstat (reached ++ [name]) with
    | none => none
    | some ⟨_, _, _, _, .link target⟩ => walk steps [] (target ++ rest)
    | some _ => walk steps (reached ++ [name]) rest

/-- No path of this many names and links is followed. -/
def maxSteps : Nat := 2 ^ 18

/-- `p.resolve(strict=True)`. -/
def resolve (p : Path) : Option Path := h.walk maxSteps [] p

/-- `os.stat`. -/
def stat (p : Path) : Option Node := (h.resolve p).bind h.lstat

def isDir (p : Path) : Bool := (h.stat p).any fun n => n.kind = .directory

def isLink (p : Path) : Bool := (h.lstat p).any Node.isLink

/-- `open(p, O_CREAT | O_EXCL)` and what is then written, or a new directory. -/
def create (p : Path) (node : Node) : Option Host :=
  match (h.resolve p.parent).map (·.child p.name) with
  | none => none
  | some q => if (h.lstat q).isSome then none else some ⟨(q, node) :: h.nodes⟩

end Host

end OufGateway.Lib
