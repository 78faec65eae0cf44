import Lexicon.Json
import Lexicon.Session

namespace Lexicon

def Reference.toJson (reference : Reference) : Json :=
  .object [("value", .text reference.value), ("table", .text reference.kind.name),
    ("index", .number reference.index)]

def Vocabulary.toJson {kind : Kind} (vocabulary : Vocabulary kind) : Json :=
  .list (vocabulary.toList.map .text)

def Session.toJson (session : Session) : Json :=
  .object [("keywords", session.keywords.toJson), ("separators", session.separators.toJson),
    ("literals", session.literals.toJson), ("identifiers", session.identifiers.toJson),
    ("trace", .list (session.trace.toList.map Reference.toJson))]

def Session.dump (session : Session) : String :=
  session.toJson.render

end Lexicon
