import PhpLint.Calls.NameSet
import PhpLint.Log
import PhpLint.Settings.Config
import PhpLint.Text.Markup
import PhpLint.Tree.Traversal

/-! Calls of functions that are neither declared nor built in. All declarations of a forest count,
wherever they stand. -/

namespace PhpLint

structure UnknownCall where
  name : String
  line : Int
  column : Int
  deriving DecidableEq, Repr

def UnknownCall.text (call : UnknownCall) : String :=
  "Unknown function: " ++ call.name ++ " at line " ++ toString call.line

namespace Calls

def declarations : Visitor NameSet where
  enter node set :=
    match node.shape with
    | .functionDecl name _ _ => (true, set.insert name)
    | _ => (true, set)
  leave _ set := set

def declared (forest : Forest) (caseSensitive : Bool) : NameSet :=
  declarations.traverse forest (.empty caseSensitive)

def lookups (declared builtins : NameSet) : Visitor (Array UnknownCall) where
  enter node calls :=
    match node.shape with
    | .functionCall name _ =>
      if declared.contains name || builtins.contains name then (true, calls)
      else (true, calls.push ⟨name, node.pos.line, node.pos.column⟩)
    | _ => (true, calls)
  leave _ calls := calls

/-- The unknown calls in the order they are met. Without builtins the default ones count, under the
case policy of the declared names. -/
def unknown (forest : Forest) (declared : NameSet) (builtins : Option NameSet) : List UnknownCall :=
  let builtins := builtins.getD (.builtins none declared.caseSensitive)
  ((lookups declared builtins).traverse forest #[]).toList

/-- The builtins under a configuration: the default ones and those it names. -/
def configuredBuiltins (config : Config) : NameSet :=
  (NameSet.builtins none config.caseSensitiveCalls).insertAll config.builtinFunctions

/-- The outcome of an analysis: the calls, the lines written about them, and what is logged. -/
structure Report where
  calls : List UnknownCall
  lines : List String
  log : List LogRecord
  deriving DecidableEq, Repr

def namesOf (calls : List UnknownCall) : List String :=
  ((NameSet.empty true).insertAll (calls.map (·.name))).names

def analyze (forest : Forest) (config : Config) : Report :=
  let known := declared forest config.caseSensitiveCalls
  let calls := unknown forest known (some (configuredBuiltins config))
  let summary := .debug ("Resolved calls: " ++ toString known.size ++ " declared function(s), " ++
    toString calls.length ++ " unknown call(s)")
  let names := .debug ("Unknown names: " ++ Text.escapeMarkup (", ".intercalate (namesOf calls)))
  { calls := calls
    lines := calls.map (·.text ++ "\n")
    log := if calls = [] then [summary] else [summary, names] }

end Calls

end PhpLint
