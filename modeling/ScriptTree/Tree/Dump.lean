import ScriptTree.Text.Json
import ScriptTree.Tree.Basic

/-! # Trees as JSON

Every element with its kind and its span without trivia; lists keep their holes. -/
set_option autoImplicit false
namespace ScriptTree.SyntaxTree

def dumpSpan (span : Span) : JsonValue :=
  .object [("start", .number span.start), ("end", .number span.stop)]

def dumpToken (tree : SyntaxTree) (id : TokenId) : JsonValue :=
  .object [("type", .string "token".toList), ("kind", .string (tree.token id).kind.name.toList),
    ("range", dumpSpan (tree.token id).span), ("text", .string (tree.tokenTrimmedText id))]

/-- A node with what is below it; `budget` bounds the number of levels. -/
def dumpWithin (tree : SyntaxTree) : Nat → NodeId → JsonValue
  | 0, _ => .object []
  | budget + 1, node =>
      let item : ListItem (Slot NodeId) TokenId → JsonValue
        | .element (.present id) => tree.dumpWithin budget id
        | .element .absent => .object [("type", .string "elided".toList)]
        | .separator id => tree.dumpToken id
      let child : Child → JsonValue
        | .node id => tree.dumpWithin budget id
        | .token id => tree.dumpToken id
        | .list id =>
            let items := (tree.listEntry id).items
            .object [("type", .string "list".toList), ("items", .array (items.items.map item)),
              ("trailing_separator", .flag items.hasTrailingSeparator)]
      .object [("type", .string "node".toList), ("kind", .string (tree.kind node).name.toList),
        ("range", dumpSpan (tree.trimmedSpan node)),
        ("children", .array ((tree.children node).map child))]

def dump (tree : SyntaxTree) : JsonValue := tree.dumpWithin tree.nodes.size root

end ScriptTree.SyntaxTree
