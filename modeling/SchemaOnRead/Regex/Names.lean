/-!
# Names of characters

The names by which a regular expression may refer to a character: those of the characters of ASCII,
with the other names and the abbreviations of its control characters.
-/

namespace SchemaOnRead.Regex

/-- The names of the characters from U+0000 up to the capital letters. -/
def namesBeforeCapitals : List (List String) :=
  [["NULL", "NUL"], ["START OF HEADING", "SOH"], ["START OF TEXT", "STX"], ["END OF TEXT", "ETX"],
    ["END OF TRANSMISSION", "EOT"], ["ENQUIRY", "ENQ"], ["ACKNOWLEDGE", "ACK"], ["ALERT", "BEL"],
    ["BACKSPACE", "BS"], ["CHARACTER TABULATION", "HORIZONTAL TABULATION", "HT", "TAB"],
    ["LINE FEED", "NEW LINE", "END OF LINE", "LF", "NL", "EOL"],
    ["LINE TABULATION", "VERTICAL TABULATION", "VT"], ["FORM FEED", "FF"],
    ["CARRIAGE RETURN", "CR"], ["SHIFT OUT", "LOCKING-SHIFT ONE", "SO"],
    ["SHIFT IN", "LOCKING-SHIFT ZERO", "SI"], ["DATA LINK ESCAPE", "DLE"],
    ["DEVICE CONTROL ONE", "DC1"], ["DEVICE CONTROL TWO", "DC2"], ["DEVICE CONTROL THREE", "DC3"],
    ["DEVICE CONTROL FOUR", "DC4"], ["NEGATIVE ACKNOWLEDGE", "NAK"], ["SYNCHRONOUS IDLE", "SYN"],
    ["END OF TRANSMISSION BLOCK", "ETB"], ["CANCEL", "CAN"], ["END OF MEDIUM", "EOM"],
    ["SUBSTITUTE", "SUB"], ["ESCAPE", "ESC"],
    ["INFORMATION SEPARATOR FOUR", "FILE SEPARATOR", "FS"],
    ["INFORMATION SEPARATOR THREE", "GROUP SEPARATOR", "GS"],
    ["INFORMATION SEPARATOR TWO", "RECORD SEPARATOR", "RS"],
    ["INFORMATION SEPARATOR ONE", "UNIT SEPARATOR", "US"], ["SPACE", "SP"], ["EXCLAMATION MARK"],
    ["QUOTATION MARK"], ["NUMBER SIGN"], ["DOLLAR SIGN"], ["PERCENT SIGN"], ["AMPERSAND"],
    ["APOSTROPHE"], ["LEFT PARENTHESIS"], ["RIGHT PARENTHESIS"], ["ASTERISK"], ["PLUS SIGN"],
    ["COMMA"], ["HYPHEN-MINUS"], ["FULL STOP"], ["SOLIDUS"], ["DIGIT ZERO"], ["DIGIT ONE"],
    ["DIGIT TWO"], ["DIGIT THREE"], ["DIGIT FOUR"], ["DIGIT FIVE"], ["DIGIT SIX"], ["DIGIT SEVEN"],
    ["DIGIT EIGHT"], ["DIGIT NINE"], ["COLON"], ["SEMICOLON"], ["LESS-THAN SIGN"], ["EQUALS SIGN"],
    ["GREATER-THAN SIGN"], ["QUESTION MARK"], ["COMMERCIAL AT"]]

/-- The names of the characters between the capital and the small letters. -/
def namesBetweenLetters : List (List String) :=
  [["LEFT SQUARE BRACKET"], ["REVERSE SOLIDUS"], ["RIGHT SQUARE BRACKET"], ["CIRCUMFLEX ACCENT"],
    ["LOW LINE"], ["GRAVE ACCENT"]]

/-- The names of the characters after the small letters. -/
def namesAfterLetters : List (List String) :=
  [["LEFT CURLY BRACKET"], ["VERTICAL LINE"], ["RIGHT CURLY BRACKET"], ["TILDE"],
    ["DELETE", "DEL"]]

/-- The names of the letters of a kind. -/
def letterNames (kind : String) : List (List String) :=
  "ABCDEFGHIJKLMNOPQRSTUVWXYZ".toList.map fun c => ["LATIN " ++ kind ++ " LETTER " ++ c.toString]

/-- The names of all characters of ASCII in order. -/
def asciiNames : List (List String) :=
  namesBeforeCapitals ++ letterNames "CAPITAL" ++ namesBetweenLetters ++ letterNames "SMALL" ++
    namesAfterLetters

/-- The character of a name, whose letters may be capital or small. A name of a character beyond ASCII
is taken for no name. -/
def named? (name : List Char) : Option Char :=
  let capital := String.ofList (name.map Char.toUpper)
  (asciiNames.findIdx? (·.contains capital)).map Char.ofNat

end SchemaOnRead.Regex
