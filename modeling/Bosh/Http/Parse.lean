import Bosh.Library.Text

/-! The header functions of `http.c`. A C string argument is the list of its bytes,
a pointer into it is the suffix it points to. -/
namespace Bosh
open Text

def maxHttpFields : Nat := 64

def httpLineSep : Bytes := ascii "\r\n"

def httpXmlContent : Bytes := ascii "text/xml"
def httpHtmlContent : Bytes := ascii "text/html"

structure HttpField where
  name : Bytes
  value : Bytes
  deriving DecidableEq

/-- `n_fields` is the length of `fields`. -/
structure HttpHeader where
  type : Bytes
  path : Bytes
  fields : List HttpField
  deriving DecidableEq

/-- A negative count converts to a size that no text reaches. -/
def strndup (str : Bytes) (n : Int) : Bytes := if n < 0 then str else str.take n.toNat

/-- Split the text before `end_str` at `delim`, into `n` parts at most. -/
def strsplit (delim : UInt8) : Nat → Bytes → List Bytes
  | 0, _ => []
  | n + 1, str =>
    if str = [] then []
    else str.takeWhile (· != delim) ::
      strsplit delim n ((str.dropWhile (· != delim)).dropWhile (· == delim))

/-- The offset of the first byte of `delim`. The source's loop has no other exit. -/
def strstrany (str delim : Bytes) : Option Nat := str.findIdx? (· ∈ delim)

/-- The field loop of `http_parse`: `none` where it sets `fail`. -/
def httpFields : Nat → Bytes → Option (List HttpField)
  | 0, _ => some []
  | n + 1, str =>
    match find [10] str with
    | none => none
    | some newline =>
      let nextLine := str.drop (newline + 1)
      let endLine := if 0 < newline ∧ str[newline - 1]? = some 13 then newline - 1 else newline
      if endLine = 0 then some []
      else
        match find [58] str with
        | none => none
        | some colon =>
          let field : HttpField := {
            name := strndup str colon
            -- the colon may lie beyond this line, and the count is then negative
            value := strndup (str.drop (colon + 1)) (endLine - (colon + 1)) }
          (httpFields n nextLine).map (field :: ·)

def httpParse (str : Bytes) : Option HttpHeader :=
  if find (httpLineSep ++ httpLineSep) str = none ∧ find [10, 10] str = none then none
  else
    match strstrany str httpLineSep with
    | none => none -- not reached: `strstrany_isSome`
    | some endLine =>
      match strsplit 32 3 (str.take endLine) with
      | [type, path, _] =>
        (httpFields maxHttpFields ((str.drop endLine).dropWhile isSpace)).map
          fun fields => { type, path, fields }
      | _ => none

def httpGetField (header : HttpHeader) (field : Bytes) : Option Bytes :=
  (header.fields.find? fun f => f.name = field).map HttpField.value

/-- The response head; the size is printed as an `int`. -/
def makeHttpHead (code : Int) (dataSize : Nat) (contentType : Bytes) : Bytes :=
  let codeMsg := if code = 200 then ascii "OK" else ascii "ERROR"
  ascii "HTTP/1.1 " ++ decimalInt code ++ ascii " " ++ codeMsg ++ ascii "\r\n" ++
    ascii "Content-type: " ++ contentType ++ ascii "; charset=UTF-8\r\n" ++
    ascii "Access-Control-Allow-Origin: *\r\n" ++
    ascii "Content-Length: " ++ decimalInt (toInt32 dataSize) ++ ascii "\r\n" ++
    ascii "\r\n"

theorem strstrany_isSome {str : Bytes}
    (complete : ¬ (find (httpLineSep ++ httpLineSep) str = none ∧ find [10, 10] str = none)) :
    (strstrany str httpLineSep).isSome := by
  have newline : 10 ∈ str := by
    rw [not_and_or] at complete
    rcases complete with crlf | lf
    · obtain ⟨i, found⟩ := Option.ne_none_iff_exists'.mp crlf
      have here := ((find_eq_some_iff (by decide)).mp found).1
      exact List.mem_of_mem_drop (here.subset (by decide))
    · obtain ⟨i, found⟩ := Option.ne_none_iff_exists'.mp lf
      have here := ((find_eq_some_iff (by decide)).mp found).1
      exact List.mem_of_mem_drop (here.subset (by decide))
  rw [strstrany, List.findIdx?_isSome, List.any_eq_true]
  exact ⟨10, newline, by decide⟩

end Bosh
