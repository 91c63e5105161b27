import FeatureAtlas.Pattern.Syntax
import FeatureAtlas.Text.Basic
import FeatureAtlas.Text.Printable

/-!
# Faults of pattern texts

Each way in which a text fails to be a pattern, with its wording. A fault is reported with its place, and
with line and column where the text has several lines.
-/

namespace FeatureAtlas

/-- What is wrong with a pattern text. -/
inductive PatternFault where
  | loneBackslash
  | badEscape (text : String)
  | incompleteEscape (text : String)
  | octalRange (text : String)
  | missingBrace
  | missingName (what : String)
  | unterminatedName (terminator : Char)
  | undefinedCharacter (name : String)
  | groupStillOpen
  | groupInLookBehind
  | invalidReference (index : Nat)
  | unterminatedSet
  | badRange (first last : String)
  | nothingToRepeat
  | multipleRepeat
  | repeatBounds
  | unexpectedEnd
  | unknownExtension (text : String)
  | unterminatedComment
  | unterminatedGroup
  | badGroupName (name : String)
  | unknownGroupName (name : String)
  | redefinedGroup (name : String) (index earlier : Nat)
  | badGroupNumber
  | tooManyBranches
  | misplacedFlags
  | localeFlag
  | incompatibleFlags
  | missingFlagsEnd
  | unknownFlag
  | globalFlagOn
  | missingFlag
  | classFlagOff
  | missingColon
  | globalFlagOff
  | flagOnAndOff
  | unbalancedParenthesis
  | behindTooFar
  | behindNotFixed
  | templateRepeat (mode : RepeatMode)
deriving DecidableEq, Repr, Inhabited

/-- The wording of a fault. -/
def PatternFault.text : PatternFault → String
  | loneBackslash => "bad escape (end of pattern)"
  | badEscape text => "bad escape " ++ text
  | incompleteEscape text => "incomplete escape " ++ text
  | octalRange text => "octal escape value " ++ text ++ " outside of range 0-0o377"
  | missingBrace => "missing \x7b"
  | missingName what => "missing " ++ what
  | unterminatedName terminator => "missing " ++ String.singleton terminator ++ ", unterminated name"
  | undefinedCharacter name => "undefined character name " ++ Text.quoted name
  | groupStillOpen => "cannot refer to an open group"
  | groupInLookBehind => "cannot refer to group defined in the same lookbehind subpattern"
  | invalidReference index => "invalid group reference " ++ toString index
  | unterminatedSet => "unterminated character set"
  | badRange first last => "bad character range " ++ first ++ "-" ++ last
  | nothingToRepeat => "nothing to repeat"
  | multipleRepeat => "multiple repeat"
  | repeatBounds => "min repeat greater than max repeat"
  | unexpectedEnd => "unexpected end of pattern"
  | unknownExtension text => "unknown extension ?" ++ text
  | unterminatedComment => "missing ), unterminated comment"
  | unterminatedGroup => "missing ), unterminated subpattern"
  | badGroupName name => "bad character in group name " ++ Text.quoted name
  | unknownGroupName name => "unknown group name " ++ Text.quoted name
  | redefinedGroup name index earlier =>
    "redefinition of group name " ++ Text.quoted name ++ " as group " ++ toString index ++
      "; was group " ++ toString earlier
  | badGroupNumber => "bad group number"
  | tooManyBranches => "conditional backref with more than two branches"
  | misplacedFlags => "global flags not at the start of the expression"
  | localeFlag => "bad inline flags: cannot use 'L' flag with a str pattern"
  | incompatibleFlags => "bad inline flags: flags 'a', 'u' and 'L' are incompatible"
  | missingFlagsEnd => "missing -, : or )"
  | unknownFlag => "unknown flag"
  | globalFlagOn => "bad inline flags: cannot turn on global flag"
  | missingFlag => "missing flag"
  | classFlagOff => "bad inline flags: cannot turn off flags 'a', 'u' and 'L'"
  | missingColon => "missing :"
  | globalFlagOff => "bad inline flags: cannot turn off global flag"
  | flagOnAndOff => "bad inline flags: flag turned on and off"
  | unbalancedParenthesis => "unbalanced parenthesis"
  | behindTooFar => "looks too much behind"
  | behindNotFixed => "look-behind requires fixed-width pattern"
  | templateRepeat mode =>
    "internal: unsupported template operator " ++
      match mode with
      | .greedy => "MAX_REPEAT"
      | .lazy => "MIN_REPEAT"
      | .possessive => "POSSESSIVE_REPEAT"

/-- Why a text is no pattern. -/
inductive PatternError where
  /-- A fault of the text, with its place unless it concerns the pattern as a whole. -/
  | fault (f : PatternFault) (position : Option Nat)
  /-- A repetition count beyond the limit. -/
  | countTooLarge
  /-- The options for ASCII and for all of Unicode are both switched on. -/
  | conflictingOptions
deriving DecidableEq, Repr, Inhabited

/-- The message about a text that is no pattern. -/
def PatternError.message (e : PatternError) (source : String) : String :=
  match e with
  | countTooLarge => "the repetition number is too large"
  | conflictingOptions => "ASCII and UNICODE flags are incompatible"
  | fault f none => f.text
  | fault f (some position) =>
    let cs := source.toList
    let before := cs.take position
    let line := before.count '\n' + 1
    let column := position - ((before.reverse.dropWhile (· != '\n')).length) + 1
    f.text ++ " at position " ++ toString position ++
      (if cs.contains '\n' then s!" (line {line}, column {column})" else "")

end FeatureAtlas
