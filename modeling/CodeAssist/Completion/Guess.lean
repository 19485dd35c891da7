import CodeAssist.Index.Search
/-!
# Guessing a type

The text of a type that does not resolve may still tell which class is meant: one with that very
name, or the first type of the index with its simple name that is also stored.
-/

namespace CodeAssist.Completion

/-- The simple name at the end of a written type. -/
def writtenSimpleName (written : String) : String :=
  String.ofList (Text.trim (((Text.splitAt '.' written.toList).getLast?).getD []))

/-- Guesses a class for the text of a type. -/
def guessType (store : Store) (index : Index) (written : String) : Option ClassId :=
  let simple := writtenSimpleName written
  if simple.isEmpty then none
  else
    store.lookup? written <|>
      ((index.findTypes { pattern := simple, options := .leadingOnly }).filter fun fact =>
        fact.simpleName == simple).findSome? fun fact => store.lookup? fact.name.dotted

end CodeAssist.Completion
