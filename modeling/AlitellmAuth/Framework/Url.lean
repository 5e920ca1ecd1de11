import AlitellmAuth.Framework.Text

/-! # URL parsing

    Python's `urllib.parse.urlparse` and the attributes of its result, with
    every input it rejects (`ValueError`) answered by `none`. Parsing works on
    lists of characters; the result holds strings.
-/

namespace Url

open Text

/-! ## Cutting strings -/

/-- `str.partition`: before the first `c`, whether there is one, and after it. -/
def partition (c : Char) : List Char → List Char × Bool × List Char
  | [] => ([], false, [])
  | d :: s =>
      if d = c then ([], true, s)
      else let (before, found, after) := partition c s; (d :: before, found, after)

/-- `str.rpartition`: cuts at the last `c`; without one, everything is `after`. -/
def rpartition (c : Char) (s : List Char) : List Char × Bool × List Char :=
  match partition c s.reverse with
  | (after, true, before) => (before.reverse, true, after.reverse)
  | (_, false, _) => ([], false, s)

/-- `str.split(sep)` for a one-character separator. -/
def splitOn (c : Char) (s : List Char) : List (List Char) :=
  s.foldr (fun d parts => if d = c then [] :: parts else
    match parts with
    | part :: parts => (d :: part) :: parts
    | [] => [[d]]) [[]]

/-- Without the separator, everything comes before it. -/
theorem partition_of_not_mem {c : Char} {l : List Char} (h : c ∉ l) :
    partition c l = (l, false, []) := by
  induction l with
  | nil => rfl
  | cons d l ih =>
    obtain ⟨hne, hl⟩ := not_or.mp (fun hmem => h (List.mem_cons.mpr hmem))
    rw [partition, if_neg (Ne.symm hne), ih hl]

theorem partition_append {c : Char} {l : List Char} (h : c ∉ l) (r : List Char) :
    partition c (l ++ c :: r) = (l, true, r) := by
  induction l with
  | nil => simp [partition]
  | cons d l ih =>
    obtain ⟨hne, hl⟩ := not_or.mp (fun hmem => h (List.mem_cons.mpr hmem))
    rw [List.cons_append, partition, if_neg (Ne.symm hne), ih hl]

/-! ## Addresses in brackets -/

def isDigit (c : Char) : Bool := '0' ≤ c && c ≤ '9'

def isHexDigit (c : Char) : Bool := isDigit c || 'a' ≤ c && c ≤ 'f' || 'A' ≤ c && c ≤ 'F'

/-- The number a list of decimal digits denotes. -/
def digitsValue (s : List Char) : Nat := s.foldl (fun n c => 10 * n + (c.toNat - '0'.toNat)) 0

/-- A decimal octet without leading zeros, at most 255. -/
def isOctet (s : List Char) : Bool :=
  !s.isEmpty && s.all isDigit && s.length ≤ 3 && (s.length == 1 || s.head? != some '0') &&
    digitsValue s ≤ 255

/-- `ipaddress.IPv4Address` accepts the text. -/
def isIpv4 (s : List Char) : Bool :=
  let octets := splitOn '.' s
  octets.length == 4 && octets.all isOctet

/-- One to four hexadecimal digits. -/
def isHextet (s : List Char) : Bool := !s.isEmpty && s.all isHexDigit && s.length ≤ 4

/-- An IPv4 tail counts as two hextets. -/
def ipv6Parts (s : List Char) : Option (List (List Char)) :=
  let parts := splitOn ':' s
  match parts.getLast? with
  | some last =>
      if parts.length < 3 then none
      else if last.contains '.' then
        if isIpv4 last then some (parts.dropLast ++ [['0'], ['0']]) else none
      else some parts
  | none => none

/-- `ipaddress.IPv6Address` accepts the text (without a scope). At most one
    `::` stands for the missing hextets, of which there must be one at least. -/
def isIpv6Address (s : List Char) : Bool :=
  match ipv6Parts s with
  | none => false
  | some parts =>
      let inner := (parts.drop 1).dropLast
      let headEmpty := parts.head? == some []
      let lastEmpty := parts.getLast? == some []
      if parts.length > 9 || (inner.filter List.isEmpty).length > 1 then false
      else if inner.any List.isEmpty then
        let hi := 1 + inner.findIdx List.isEmpty
        let lo := parts.length - hi - 1
        let hi' := if headEmpty then hi - 1 else hi
        let lo' := if lastEmpty then lo - 1 else lo
        (!headEmpty || hi' == 0) && (!lastEmpty || lo' == 0) && hi' + lo' < 8 &&
          (parts.take hi').all isHextet && (parts.drop (parts.length - lo')).all isHextet
      else parts.length == 8 && parts.all isHextet

/-- `ipaddress.ip_address` accepts the text as an IPv6 address, with or
    without a scope. -/
def isIpv6 (s : List Char) : Bool :=
  let (address, hasScope, scope) := partition '%' s
  !s.contains '/' && (!hasScope || !scope.isEmpty && !scope.contains '%') && isIpv6Address address

/-- The check of a host in brackets: an IPv6 address, or a future version
    marked by `v`. -/
def bracketedHostOk (host : List Char) : Bool :=
  if host.head? == some 'v' then
    let (version, dot, rest) := partition '.' (host.drop 1)
    dot && !version.isEmpty && version.all isHexDigit && !rest.isEmpty && !rest.contains '\n'
  else isIpv6 host

/-- The check of a network location that has brackets: nothing before the
    opening one, nothing but a port after the closing one. -/
def bracketedNetlocOk (netloc : List Char) : Bool :=
  let hostport := (rpartition '@' netloc).2.2
  let (before, opened, bracketed) := partition '[' hostport
  if opened then
    let (host, _, port) := partition ']' bracketed
    before.isEmpty && (port.isEmpty || port.head? == some ':') && bracketedHostOk host
  else bracketedHostOk (partition ':' hostport).1

/-! ## Splitting a URL -/

/-- A parsed URL, with the six components of `urlparse`. -/
structure Parsed where
  scheme : String
  netloc : String
  path : String
  params : String
  query : String
  fragment : String
  deriving DecidableEq, Repr

def isAsciiLetter (c : Char) : Bool := 'a' ≤ c && c ≤ 'z' || 'A' ≤ c && c ≤ 'Z'

def isSchemeChar (c : Char) : Bool :=
  isAsciiLetter c || isDigit c || c == '+' || c == '-' || c == '.'

/-- Leading control characters and spaces are dropped, and tabs and line ends
    everywhere. -/
def sanitize (url : List Char) : List Char :=
  (url.dropWhile fun c => c.toNat ≤ 0x20).filter fun c => c != '\t' && c != '\r' && c != '\n'

/-- The scheme, if the text before the first colon is one, and the rest. -/
def splitScheme (url : List Char) : List Char × List Char :=
  let (before, found, after) := partition ':' url
  match before with
  | c :: _ => if found && isAsciiLetter c && before.all isSchemeChar then
      (lowerChars [] before, after) else ([], url)
  | [] => ([], url)

/-- Characters whose compatibility decomposition contains one of `/?#@:`; a
    network location with one of them is rejected. -/
def decomposesToDelimiter (c : Char) : Bool :=
  inRanges [(0x2047, 0x2049), (0x2100, 0x2101), (0x2105, 0x2106), (0x2A74, 0x2A74),
    (0xFE13, 0xFE13), (0xFE16, 0xFE16), (0xFE55, 0xFE56), (0xFE5F, 0xFE5F), (0xFE6B, 0xFE6B),
    (0xFF03, 0xFF03), (0xFF0F, 0xFF0F), (0xFF1A, 0xFF1A), (0xFF1F, 0xFF20)] c

/-- The checks `urlsplit` makes on a network location. -/
def netlocOk (netloc : List Char) : Bool :=
  (netloc.contains '[' == netloc.contains ']') &&
    (!netloc.contains '[' || bracketedNetlocOk netloc) && !netloc.any decomposesToDelimiter

/-- Schemes whose paths have parameters. -/
def usesParams : List String :=
  ["", "ftp", "hdl", "prospero", "http", "imap", "https", "shttp", "rtsp", "rtsps", "rtspu",
    "sip", "sips", "mms", "sftp", "tel"]

/-- The parameters follow the first semicolon of the last path segment. -/
def splitParams (path : List Char) : List Char × List Char :=
  let (before, slash, last) := rpartition '/' path
  let (segment, _, params) := partition ';' last
  (if slash then before ++ '/' :: segment else segment, params)

/-- `urllib.parse.urlparse`; `none` where it raises `ValueError`. -/
def urlparse (url : String) : Option Parsed :=
  let (scheme, rest) := splitScheme (sanitize url.toList)
  let (netloc, rest) :=
    if rest.take 2 = ['/', '/'] then
      (rest.drop 2).span fun c => c != '/' && c != '?' && c != '#'
    else ([], rest)
  if netlocOk netloc then
    let (rest, _, fragment) := partition '#' rest
    let (path, _, query) := partition '?' rest
    let scheme := String.ofList scheme
    let (path, params) := if usesParams.contains scheme then splitParams path else (path, [])
    some { scheme, netloc := String.ofList netloc, path := String.ofList path,
           params := String.ofList params, query := String.ofList query,
           fragment := String.ofList fragment }
  else none

/-! ## Attributes of the network location -/

/-- The user name and password before the last `@`. -/
def Parsed.userinfo (p : Parsed) : Option String × Option String :=
  let (info, found, _) := rpartition '@' p.netloc.toList
  if found then
    let (username, hasPassword, password) := partition ':' info
    (some (String.ofList username), if hasPassword then some (String.ofList password) else none)
  else (none, none)

def Parsed.username (p : Parsed) : Option String := p.userinfo.1

def Parsed.password (p : Parsed) : Option String := p.userinfo.2

/-- The host and the port, as text. -/
def Parsed.hostinfo (p : Parsed) : List Char × List Char :=
  let hostport := (rpartition '@' p.netloc.toList).2.2
  let (_, opened, bracketed) := partition '[' hostport
  if opened then
    let (host, _, port) := partition ']' bracketed
    (host, (partition ':' port).2.2)
  else
    let (host, _, port) := partition ':' hostport
    (host, port)

/-- The host, lowercased up to an IPv6 scope. -/
def Parsed.hostname (p : Parsed) : Option String :=
  let host := p.hostinfo.1
  if host.isEmpty then none
  else
    let (name, hasScope, scope) := partition '%' host
    some (String.ofList (lowerChars [] name ++ if hasScope then '%' :: scope else []))

/-- The port; `none` where reading the attribute raises `ValueError`, and
    `some none` when there is no port. -/
def Parsed.port (p : Parsed) : Option (Option Nat) :=
  let port := p.hostinfo.2
  if port.isEmpty then some none
  else if port.all isDigit && digitsValue port ≤ 65535 then some (some (digitsValue port))
  else none

/-! The host and the port are read off the netloc alone. -/

theorem Parsed.hostinfo_congr {p p' : Parsed} (h : p.netloc = p'.netloc) :
    p.hostinfo = p'.hostinfo := by
  unfold Parsed.hostinfo
  rw [h]

theorem Parsed.hostname_congr {p p' : Parsed} (h : p.netloc = p'.netloc) :
    p.hostname = p'.hostname := by
  unfold Parsed.hostname
  rw [hostinfo_congr h]

theorem Parsed.port_congr {p p' : Parsed} (h : p.netloc = p'.netloc) : p.port = p'.port := by
  unfold Parsed.port
  rw [hostinfo_congr h]

end Url
