/-! How log lines are laid out, chosen by name. Only the names of the tree and JSON layouts matter,
in any case; every other name means plain text. -/

namespace TypeEnv

inductive LogFormat where
  | text | tree | json
  deriving DecidableEq, Repr, Inhabited

/-- Lower-casing the ASCII letters is enough: no other character becomes a letter of the two names
when it is lower-cased. -/
def LogFormat.ofName (name : String) : LogFormat :=
  match name.toLower with
  | "tree" => .tree
  | "json" => .json
  | _ => .text

end TypeEnv
