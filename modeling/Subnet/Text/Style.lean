/-!
# Paint — SGR sequences around a text

    A painted text stands between the opening and the closing sequence of its
    style.  Where the text itself closes the style, the style is opened again,
    and it is closed before and opened again after every line break.
-/

namespace Subnet.Text

/-- A style: the sequences that switch it on and off. -/
structure Style where
  opening : List Char
  closing : List Char

namespace Style

/-- Red letters. -/
def red : Style :=
  ⟨"\x1b[31m".toList, "\x1b[39m".toList⟩

/-- Bold letters. -/
def bold : Style :=
  ⟨"\x1b[1m".toList, "\x1b[22m".toList⟩

/-- Opens the style again after each closing sequence inside a text. -/
def reopen (s : Style) : List Char → List Char
  | [] => []
  | c :: rest =>
      if s.closing.isPrefixOf (c :: rest) then
        s.closing ++ s.opening ++ reopen s (rest.drop (s.closing.length - 1))
      else c :: reopen s rest
  termination_by cs => cs.length
  decreasing_by
    · simp only [List.length_drop, List.length_cons]
      omega
    · simp only [List.length_cons]
      omega

/-- Closes the style before each line break and opens it again after. -/
def encaseLines (s : Style) : List Char → List Char
  | [] => []
  | '\r' :: '\n' :: rest => s.closing ++ ['\r', '\n'] ++ s.opening ++ encaseLines s rest
  | '\n' :: rest => s.closing ++ ['\n'] ++ s.opening ++ encaseLines s rest
  | c :: rest => c :: encaseLines s rest

/-- A text in the style; an empty text stays empty. -/
def apply (s : Style) (cs : List Char) : List Char :=
  if cs = [] then [] else s.opening ++ s.encaseLines (s.reopen cs) ++ s.closing

/-- A text in the style if colour is on, and as it is otherwise. -/
def paint (s : Style) (colour : Bool) (text : String) : String :=
  if colour then String.ofList (s.apply text.toList) else text

end Style

end Subnet.Text
