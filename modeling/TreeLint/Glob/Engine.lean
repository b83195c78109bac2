import TreeLint.Glob.Match
import TreeLint.Glob.Parser

/-!
Contract: what rules need of path patterns.

Owns: `GlobEngine`, which says which patterns are well formed, which collections of patterns can be compiled
together, and which paths a pattern covers; and the engine that reads and matches globs. The words about patterns that
are refused are the engine's, and errors carry them.
-/

set_option autoImplicit false

namespace TreeLint

/-- Path patterns as far as rules depend on them. -/
structure GlobEngine where
  /-- Accepts a well-formed pattern, or says why another is none. -/
  check : String → Except String Unit
  /-- Accepts well-formed patterns that can be compiled together, or says why others cannot. -/
  compile : List String → Except String Unit
  /-- Whether a pattern covers a whole path. -/
  covers : String → String → Bool

namespace GlobEngine

def accepts (engine : GlobEngine) (pattern : String) : Bool := (engine.check pattern).isOk

def compiles (engine : GlobEngine) (patterns : List String) : Bool := (engine.compile patterns).isOk

def malformed? (engine : GlobEngine) (patterns : List String) : Option (String × String) :=
  patterns.findSome? fun pattern =>
    match engine.check pattern with
    | .ok _ => none
    | .error reason => some (pattern, reason)

def anyCovers (engine : GlobEngine) (patterns : List String) (path : String) : Bool :=
  patterns.any fun pattern => engine.covers pattern path

/-- The engine for globs, whose wildcards also pass from one component to the next. -/
def standard : GlobEngine where
  check pattern :=
    match Glob.read pattern with
    | .ok _ => .ok ()
    | .error fault => .error fault.message
  compile patterns :=
    let fits (pattern : String) : Bool :=
      match Glob.read pattern with
      | .ok glob => glob.depth false ≤ Glob.maxDepth
      | .error _ => false
    if patterns.all fits then .ok () else .error Glob.tooDeep
  covers pattern path :=
    match Glob.read pattern with
    | .ok glob => glob.covers false path
    | .error _ => false

end GlobEngine

end TreeLint
