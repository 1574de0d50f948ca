namespace JobShell.Program.Pattern.Ranked

/-- What may be wrong with a regular expression. -/
inductive Fault
  | lonelyBackslash
  | controlAtEnd
  | unknownEscape
  | countsOutOfOrder
  | countTooBig
  | openClass
  | escapeInClass
  | rangeOutOfOrder
  | nothingToRepeat
  | unknownFlag
  | classOutside
  | elementsUnsupported
  | openGroup
  | noSuchGroup
  | openComment
  | lonelyClosing
  | openCondition
  | varyingLookbehind
  | manyBranches
  | unknownClass
  | codeTooBig
  | caseEscape
  | unknownNaming
  | openName
  | sameName
  | nameWithDigit
  | badProperty
  | unknownProperty
  | nameTooLong
  | badRange
  | octalTooBig
  | noBrace
  | badReference
  | unknownVerb
  | noName
  | notOctal
  | notHexadecimal
  | badControl
  | badNamed
  | anyInClass
  | noDigits
  | wideOnly
  | badHyphen
  | cutInside
  deriving DecidableEq

def Fault.message : Fault → String
  | lonelyBackslash => "\\ at end of pattern"
  | controlAtEnd => "\\c at end of pattern"
  | unknownEscape => "unrecognized character follows \\"
  | countsOutOfOrder => "numbers out of order in \x7b\x7d quantifier"
  | countTooBig => "number too big in \x7b\x7d quantifier"
  | openClass => "missing terminating ] for character class"
  | escapeInClass => "escape sequence is invalid in character class"
  | rangeOutOfOrder => "range out of order in character class"
  | nothingToRepeat => "quantifier does not follow a repeatable item"
  | unknownFlag => "unrecognized character after (? or (?-"
  | classOutside => "POSIX named classes are supported only within a class"
  | elementsUnsupported => "POSIX collating elements are not supported"
  | openGroup => "missing closing parenthesis"
  | noSuchGroup => "reference to non-existent subpattern"
  | openComment => "missing ) after (?# comment"
  | lonelyClosing => "unmatched closing parenthesis"
  | openCondition => "missing closing parenthesis for condition"
  | varyingLookbehind => "lookbehind assertion is not fixed length"
  | manyBranches => "conditional subpattern contains more than two branches"
  | unknownClass => "unknown POSIX class name"
  | codeTooBig => "character code point value in \\x\x7b\x7d or \\o\x7b\x7d is too large"
  | caseEscape => "PCRE2 does not support \\F, \\L, \\l, \\N\x7bname\x7d, \\U, or \\u"
  | unknownNaming => "unrecognized character after (?P"
  | openName => "syntax error in subpattern name (missing terminator?)"
  | sameName => "two named subpatterns have the same name (PCRE2_DUPNAMES not set)"
  | nameWithDigit => "subpattern name must start with a non-digit"
  | badProperty => "malformed \\P or \\p sequence"
  | unknownProperty => "unknown property after \\P or \\p"
  | nameTooLong => "subpattern name is too long (maximum 32 code units)"
  | badRange => "invalid range in character class"
  | octalTooBig => "octal value is greater than \\377 in 8-bit non-UTF-8 mode"
  | noBrace => "missing opening brace after \\o"
  | badReference =>
    "\\g is not followed by a braced, angle-bracketed, or quoted name/number or by a plain number"
  | unknownVerb => "(*alpha_assertion) not recognized"
  | noName => "subpattern name expected"
  | notOctal => "non-octal character in \\o\x7b\x7d (closing brace missing?)"
  | notHexadecimal => "non-hex character in \\x\x7b\x7d (closing brace missing?)"
  | badControl => "\\c must be followed by a printable ASCII character"
  | badNamed => "\\k is not followed by a braced, angle-bracketed, or quoted name"
  | anyInClass => "\\N is not supported in a class"
  | noDigits => "digits missing in \\x\x7b\x7d or \\o\x7b\x7d or \\N\x7bU+\x7d"
  | wideOnly => "\\N\x7bU+dddd\x7d is supported only in Unicode (UTF) mode"
  | badHyphen => "invalid hyphen in option setting"
  | cutInside => "\\K is not allowed in lookarounds (but see PCRE2_EXTRA_ALLOW_LOOKAROUND_BSK)"

end JobShell.Program.Pattern.Ranked
