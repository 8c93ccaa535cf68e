import Mathlib.Data.List.Basic
import Mathlib.Data.List.DropRight

/-
  `get_client_ip`: the client's address behind the trusted
  proxies, which each append the address they were reached
  from to `X-Forwarded-For`.

  Main declarations:
    * `Text.strip`
    * `Request`
    * `getClientIp`
    * `Appended`
    * `Forwarded`
    * `addresses_append`
    * `getClientIp_of_forwarded`
-/

namespace CrudAuth

namespace Http

------------------------------------------------------------
-- Texts
------------------------------------------------------------

/- Strings, as the characters they are made of. -/
abbrev Text := List Char

/- `str.isspace` of one character. -/
def isSpace (char : Char) : Bool :=
  let code := char.toNat
  (9 ≤ code && code ≤ 13) || (28 ≤ code && code ≤ 32) ||
    code = 0x85 || code = 0xa0 || code = 0x1680 ||
    (0x2000 ≤ code && code ≤ 0x200a) || code = 0x2028 ||
    code = 0x2029 || code = 0x202f || code = 0x205f ||
    code = 0x3000

/- `str.strip` -/
def strip (text : Text) : Text :=
  (text.dropWhile isSpace).rdropWhile isSpace

/- Nothing but whitespace. -/
def Blank (text : Text) : Prop :=
  ∀ char ∈ text, isSpace char = true

variable {text before after address : Text}
variable {lines later : List Text}

/- Whitespace around a text is stripped with its own. -/
theorem strip_append_blank
    (hBefore : Blank before)
    (hAfter : Blank after)
    (hSome : strip address ≠ []) :
    strip (before ++ address ++ after) = strip address := by
  have hStop : address.dropWhile isSpace ≠ [] := by
    intro hNil
    apply hSome
    unfold strip
    rw [hNil]
    rfl
  unfold strip
  rw [List.append_assoc, List.dropWhile_append,
    List.dropWhile_eq_nil_iff.mpr hBefore]
  simp only [List.isEmpty_nil, if_true]
  rw [List.dropWhile_append]
  have hEmpty :
      (address.dropWhile isSpace).isEmpty = false := by
    rw [List.isEmpty_eq_false_iff]
    exact hStop
  rw [hEmpty]
  simp only [Bool.false_eq_true, if_false]
  unfold List.rdropWhile
  rw [List.reverse_append, List.dropWhile_append,
    List.dropWhile_eq_nil_iff.mpr]
  · rfl
  · intro char hChar
    exact hAfter char (List.mem_reverse.mp hChar)

------------------------------------------------------------
-- The Forwarded Addresses
------------------------------------------------------------

/-
  Split on commas, each part stripped, empty ones dropped.
-/
def parts (text : Text) : List Text :=
  ((text.splitOn ',').map strip).filter fun part =>
    part ≠ []

/- Header lines, their names in lower case, and the peer. -/
structure Request where
  headers : List (String × Text)
  client : Option Text

/- `request.headers.getlist` -/
def Request.getlist
    (request : Request)
    (name : String) : List Text :=
  (request.headers.filter fun header =>
    header.1 = name).map Prod.snd

/- The values of `X-Forwarded-For`. -/
def Request.forwarded (request : Request) : List Text :=
  request.getlist "x-forwarded-for"

/- The lines as one list. -/
def addresses (lines : List Text) : List Text :=
  parts (List.intercalate [','] lines)

/- `parts[-index]`, where there are that many. -/
def fromRight (parts : List Text) (index : Nat) :
    Option Text :=
  parts[parts.length - index]?

/- The address of the socket's peer. -/
def Request.peer (request : Request) : Text :=
  request.client.getD "unknown".toList

/- Without any part the peer is the client. -/
def getClientIp
    (request : Request)
    (trustedHops : Nat) : Text :=
  if 0 < trustedHops then
    let parts := addresses request.forwarded
    match fromRight parts
        (min trustedHops parts.length) with
    | some part => part
    | none => request.peer
  else
    request.peer

------------------------------------------------------------
-- Proxies
------------------------------------------------------------

/- What a proxy appends. -/
structure IsAddress (address : Text) : Prop where
  nonempty : address ≠ []
  comma : ',' ∉ address
  trimmed : strip address = address

/- It goes to the last line, or on a line of its own. -/
inductive Appended (address : Text) :
    List Text → List Text → Prop
  | newLine
      {lines : List Text}
      {before after : Text}
      (hBefore : Blank before)
      (hAfter : Blank after) :
      Appended address lines
        (lines ++ [before ++ address ++ after])
  | lastLine
      {lines : List Text}
      {line before after : Text}
      (hBefore : Blank before)
      (hAfter : Blank after) :
      Appended address (lines ++ [line])
        (lines ++
          [line ++ ',' :: (before ++ address ++ after)])

/-
  `Forwarded sent hops lines`: the client sent the lines
  `sent`, the proxies appended `hops`, outermost first, and
  the lines that arrive are `lines`.
-/
inductive Forwarded (sent : List Text) :
    List Text → List Text → Prop
  | direct : Forwarded sent [] sent
  | hop
      {hops lines later : List Text}
      {address : Text}
      (hForwarded : Forwarded sent hops lines)
      (hAddress : IsAddress address)
      (hAppended : Appended address lines later) :
      Forwarded sent (hops ++ [address]) later

------------------------------------------------------------
-- Splitting And Joining
------------------------------------------------------------

/- A comma is where two texts come apart. -/
theorem parts_append_comma :
    parts (before ++ ',' :: after) =
      parts before ++ parts after := by
  unfold parts
  rw [List.splitOn_append_cons_self, List.map_append,
    List.filter_append]

/- Joining the lines first changes no part. -/
theorem addresses_eq_flatMap :
    addresses lines = lines.flatMap parts := by
  unfold addresses
  induction lines with
  | nil => rfl
  | cons line rest ih =>
      cases rest with
      | nil => simp
      | cons next rest =>
          rw [List.intercalate_cons_cons, List.append_assoc,
            List.singleton_append, parts_append_comma, ih]
          rfl

/- An address with whitespace around it is one part. -/
theorem parts_of_isAddress
    (hBefore : Blank before)
    (hAfter : Blank after)
    (hAddress : IsAddress address) :
    parts (before ++ address ++ after) = [address] := by
  have hComma : ',' ∉ before ++ address ++ after := by
    intro hMem
    rcases List.mem_append.mp hMem with hLeft | hRight
    · rcases List.mem_append.mp hLeft with hBlank | hOwn
      · exact absurd (hBefore _ hBlank) (by decide)
      · exact hAddress.comma hOwn
    · exact absurd (hAfter _ hRight) (by decide)
  have hSome : strip address ≠ [] := by
    rw [hAddress.trimmed]
    exact hAddress.nonempty
  unfold parts
  rw [List.splitOn_eq_singleton hComma, List.map_singleton,
    strip_append_blank hBefore hAfter hSome,
    hAddress.trimmed]
  simp [hAddress.nonempty]

/- A proxy adds one part, at the right end. -/
theorem addresses_append
    (hAddress : IsAddress address)
    (hAppended : Appended address lines later) :
    addresses later = addresses lines ++ [address] := by
  rw [addresses_eq_flatMap, addresses_eq_flatMap]
  cases hAppended with
  | newLine hBefore hAfter =>
      rw [List.flatMap_append, List.flatMap_singleton,
        parts_of_isAddress hBefore hAfter hAddress]
  | lastLine hBefore hAfter =>
      rw [List.flatMap_append, List.flatMap_append,
        List.flatMap_singleton, List.flatMap_singleton,
        parts_append_comma,
        parts_of_isAddress hBefore hAfter hAddress,
        List.append_assoc]

/- Whatever the client sent stays to the left. -/
theorem addresses_of_forwarded
    {sent hops : List Text}
    (hForwarded : Forwarded sent hops lines) :
    addresses lines = addresses sent ++ hops := by
  induction hForwarded with
  | direct => simp
  | hop _ hAddress hAppended ih =>
      rw [addresses_append hAddress hAppended, ih,
        List.append_assoc]

------------------------------------------------------------
-- The Client
------------------------------------------------------------

/- Counting back the trusted hops finds the outermost. -/
theorem getClientIp_of_forwarded
    {sent inner : List Text}
    {outermost : Text}
    {request : Request}
    (hForwarded : Forwarded sent (outermost :: inner)
      request.forwarded) :
    getClientIp request (inner.length + 1) =
      outermost := by
  have hParts := addresses_of_forwarded hForwarded
  have hLength : (addresses request.forwarded).length =
      (addresses sent).length + (inner.length + 1) := by
    rw [hParts, List.length_append, List.length_cons]
  have hFound :
      fromRight (addresses request.forwarded)
          (min (inner.length + 1)
            (addresses request.forwarded).length) =
        some outermost := by
    unfold fromRight
    rw [hLength, Nat.min_eq_left (by omega),
      Nat.add_sub_cancel, hParts,
      List.getElem?_append_right (Nat.le_refl _),
      Nat.sub_self]
    rfl
  unfold getClientIp
  rw [if_pos (by omega)]
  dsimp only
  rw [hFound]

/-
  Whatever header lines the client sends, behind as many
  proxies as are trusted its address is what the outermost
  proxy saw.
-/
theorem getClientIp_unspoofable
    {sent sent' inner inner' : List Text}
    {outermost : Text}
    {request request' : Request}
    {trustedHops : Nat}
    (hHops : trustedHops = inner.length + 1)
    (hHops' : trustedHops = inner'.length + 1)
    (hForwarded : Forwarded sent (outermost :: inner)
      request.forwarded)
    (hForwarded' : Forwarded sent' (outermost :: inner')
      request'.forwarded) :
    getClientIp request trustedHops = outermost ∧
      getClientIp request' trustedHops = outermost := by
  constructor
  · rw [hHops]
    exact getClientIp_of_forwarded hForwarded
  · rw [hHops']
    exact getClientIp_of_forwarded hForwarded'

/- A client that sends nothing, and one that forges. -/
def honestRequest : Request where
  headers :=
    [("x-forwarded-for", "203.0.113.9".toList),
      ("x-forwarded-for", "10.0.0.2".toList)]
  client := some "10.0.0.3".toList

/- A client that sends the header itself. -/
def forgedRequest : Request where
  headers :=
    [("x-forwarded-for", "6.6.6.6,, ".toList),
      ("host", "localhost".toList),
      ("x-forwarded-for",
        " 7.7.7.7,, 203.0.113.9,10.0.0.2".toList)]
  client := some "10.0.0.3".toList

/- A forged prefix changes nothing. -/
theorem getClientIp_forged :
    getClientIp honestRequest 2 = "203.0.113.9".toList ∧
      getClientIp forgedRequest 2 =
        "203.0.113.9".toList := by
  have hOuter : IsAddress "203.0.113.9".toList :=
    ⟨by decide, by decide, by decide⟩
  have hInner : IsAddress "10.0.0.2".toList :=
    ⟨by decide, by decide, by decide⟩
  have hNone : Blank [] := by
    intro char hChar
    cases hChar
  have hSpace : Blank [' '] := by
    intro char hChar
    rw [List.mem_singleton.mp hChar]
    rfl
  have hHonest : Forwarded []
      ["203.0.113.9".toList, "10.0.0.2".toList]
      honestRequest.forwarded :=
    .hop (.hop .direct hOuter (.newLine hNone hNone))
      hInner
      (@Appended.newLine _ ["203.0.113.9".toList] _ _ hNone
        hNone)
  have hForged : Forwarded
      ["6.6.6.6,, ".toList, " 7.7.7.7,".toList]
      ["203.0.113.9".toList, "10.0.0.2".toList]
      forgedRequest.forwarded :=
    .hop
      (.hop .direct hOuter
        (@Appended.lastLine _ ["6.6.6.6,, ".toList]
          " 7.7.7.7,".toList _ _ hSpace hNone))
      hInner
      (@Appended.lastLine _ ["6.6.6.6,, ".toList]
        " 7.7.7.7,, 203.0.113.9".toList _ _ hNone hNone)
  exact getClientIp_unspoofable rfl rfl hHonest hForged

end Http

end CrudAuth
