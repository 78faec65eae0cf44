import Lexicon.Lexeme
import Lexicon.Session

namespace Lexicon.Report

def ofLines (lines : List String) : String :=
  String.intercalate "\n" lines

def ofLexemes (lexemes : List Lexeme) : String :=
  ofLines ("\tLexeme\tCategory" :: "" ::
    lexemes.map fun lexeme => s!"\t{lexeme.value}\t{lexeme.category.name}")

def ofVocabulary {kind : Kind} (title : String) (vocabulary : Vocabulary kind) : String :=
  ofLines (s!"\t{title}" :: "" :: "\tIndex\tValue" ::
    vocabulary.toList.mapIdx fun i value => s!"\t{i}\t{value}")

def ofTrace (trace : List Reference) : String :=
  ofLines ("\tStandard symbols" :: "" :: "\tValue\tReference" ::
    trace.map fun reference =>
      s!"\t{reference.value}\t({reference.kind.name}, {reference.index})")

def ofSession (session : Session) : String :=
  String.intercalate "\n\n\n"
    [ofVocabulary "Keywords" session.keywords,
     ofVocabulary "Separators" session.separators,
     ofVocabulary "Literals" session.literals,
     ofVocabulary "Identifiers" session.identifiers,
     ofTrace session.trace.toList]

end Lexicon.Report
