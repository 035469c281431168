/-! Raw text of JavaScript template literals: a text is escaped so that the literal's cooked text is
the text again. A dollar sign needs its escape only in front of an opening brace, where it would
start a substitution; a carriage return needs one since raw ones are read as line feeds. -/

set_option autoImplicit false

namespace SourceStamp.Text

def escapeTemplateChars : List Char → List Char
  | [] => []
  | c :: cs =>
    if c = '\\' then '\\' :: '\\' :: escapeTemplateChars cs
    else if c = '\x60' then '\\' :: '\x60' :: escapeTemplateChars cs
    else if c = '$' ∧ cs.head? = some '\x7b' then '\\' :: '$' :: escapeTemplateChars cs
    else if c = '\r' then '\\' :: 'r' :: escapeTemplateChars cs
    else c :: escapeTemplateChars cs

def escapeTemplate (text : String) : String := String.ofList (escapeTemplateChars text.toList)

example : escapeTemplate "$$\x7b\r\n" = "$\\$\x7b\\r\n" := by decide

end SourceStamp.Text
