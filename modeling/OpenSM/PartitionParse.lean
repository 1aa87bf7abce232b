import OpenSM.PartitionConfig
import OpenSM.Lib.CBuffer

/-! How `osm_prtn_config.c` cuts the lines of a partition file into what it acts on, and what the text of the file
says. -/

namespace OpenSM.Partition.Parse

open Lib Lib.CString Lib.CBuffer
open McMember (rawByte)

def isBlank (c : Char) : Bool := c ∈ [' ', '\t', '\n']

structure TokenPtr where
  name : ℕ
  val : Option ℕ

def TokenPtr.read (t : TokenPtr) (b : Str) : Token := ⟨cstr b t.name, t.val.map (cstr b)⟩

structure NameToken where
  buf : Str
  token : TokenPtr
  len : ℕ

def parseNameToken (b : Str) (str : ℕ) : NameToken :=
  let p := skipHead isBlank b str
  let q := strchr b p '='
  let b := cut b q
  let len := strlen b str + 1
  let b := stripTail isBlank b p (p + strlen b p)
  match q with
  | none => ⟨b, ⟨p, none⟩, len⟩
  | some q =>
    let p' := skipHead isBlank b (q + 1)
    let q' := p' + strlen b p'
    ⟨stripTail isBlank b p' q', ⟨p, some p'⟩, len + (q' - (q + 1)) + 1⟩

structure MgroupFlags where
  buf : Str
  flags : List Token
  len : ℕ

def parseMgroupFlags : ℕ → Str → ℕ → MgroupFlags
  | 0, b, _ => ⟨b, [], 0⟩
  | k + 1, b, p =>
    let q := strchr b p ','
    let r := parseNameToken (cut b q) p
    let t := r.token.read r.buf
    if q.isSome then
      let m := parseMgroupFlags k r.buf (p + r.len)
      ⟨m.buf, t :: m.flags, r.len + m.len⟩
    else ⟨r.buf, [t], r.len⟩

def gidOk (mgid : Str) : Bool := (inetPton mgid).any fun m => rawByte m 0 = 0xFF

def mgroupCreate (k : ℕ) (b : Str) (p : ℕ) (mgid : Str) : MgroupFlags :=
  if gidOk mgid then parseMgroupFlags k b p else ⟨b, [], 0⟩

structure Acted where
  ctx : Parsing
  log : List Event
  ok : Bool

def Event.isFlush : Event → Bool
  | .flush => true
  | _ => false

variable (env : Env)

def Acted.next (a : Acted) (e : Event) : Acted where
  ctx := (act env a.ctx e).getD a.ctx
  log := if Event.isFlush e then a.log else a.log ++ [e]
  ok := (act env a.ctx e).isSome

def Acted.fail (a : Acted) : Acted := { a with ok := false }

/-- Where `p` is after a definition, where the line ends, and whether the line is read on. -/
structure Move where
  p : ℕ
  nul : ℕ
  goesOn : Bool

structure Scan where
  buf : Str
  acted : Acted
  moves : List Move
  isParseSuccess : ℤ

def Scan.next (s : Scan) (e : Event) : Scan := { s with acted := s.acted.next env e }

def Scan.fail (s : Scan) : Scan := { s with acted := s.acted.fail }

def headerFlags : ℕ → Scan → ℕ → ℕ → Scan × ℕ × ℕ
  | 0, s, p, len => (s, p, len)
  | k + 1, s, p, len =>
    let q := strchr s.buf p ','
    let r := parseNameToken (cut s.buf q) p
    let s := { s with buf := r.buf }.next env (.flag (r.token.read r.buf))
    if q.isSome then headerFlags k s (p + r.len) (len + r.len) else (s, p + r.len, len + r.len)

def header (s : Scan) (p len : ℕ) : Scan × Option (ℕ × ℕ) :=
  match strchr s.buf p ':' with
  | none => (s.fail, none)
  | some colon =>
    let b := put s.buf colon
    let str := colon + 1
    let q := strchr b p ','
    let r := parseNameToken (cut b q) p
    let s := { s with buf := r.buf }
    let h := if q.isSome then headerFlags env b.length s (p + r.len) (len + r.len) else (s, p + r.len, len + r.len)
    if h.2.1 ≠ str then (h.1.fail, none)
    else
      let s := h.1.next env (.create (r.token.read h.1.buf))
      (s, if s.acted.ok then some (h.2.1, h.2.2) else none)

/-- A port specifier without a name is none. A group without an address would be read through a null pointer. -/
def properties : ℕ → Scan → ℕ → ℕ → Scan × Option ℕ
  | 0, s, _, _ => (s.fail, none)
  | k + 1, s, p, len =>
    let q := strchr s.buf p ','
    let r := parseNameToken (cut s.buf q) p
    let t := r.token.read r.buf
    let s := { s with buf := r.buf }
    let len := len + r.len
    if t.name = "mgid".toList then
      match t.val with
      | none => (s.fail, none)
      | some mgid =>
        let m := mgroupCreate s.buf.length s.buf (p + r.len) mgid
        let s := { s with buf := m.buf }.next env (.entry (.mgid mgid m.flags))
        (s, if s.acted.ok then some (len + m.len) else none)
    else
      let s := if t.name = [] then s else s.next env (.entry (.port t))
      if s.acted.ok then if q.isSome then properties k s (p + r.len) len else (s, some len) else (s, none)

def parsePartConf (s : Scan) (str : ℕ) : Scan × Option ℕ :=
  let c := s.buf.getD str nul
  let p := if c = '\t' ∨ c = nul ∨ c = '\n' then str + 1 else str
  let len := p - str
  match s.acted.ctx.conf.prtn with
  | some _ => properties env s.buf.length s p len
  | none =>
    match header env s p len with
    | (s, none) => (s, none)
    | (s, some (p, len)) => properties env s.buf.length s p len

def scanLine (nul' : ℕ) : ℕ → Scan → ℕ → Scan
  | 0, s, _ => s
  | k + 1, s, p =>
    let p := skipHead isBlank s.buf p
    if s.buf.getD p nul = nul then s
    else
      let q := strchr s.buf p ';'
      match parsePartConf env { s with buf := cut s.buf q } p with
      | (s, none) => { s with isParseSuccess := -1 }
      | (s, some len) =>
        let s := { s with isParseSuccess := 1, moves := s.moves ++ [⟨p + len, nul', q.isSome⟩] }
        if q.isSome then scanLine nul' k (s.next env .flush) (p + len) else s

def lineSize : ℕ := 4096

def readLine (b line : Str) : Str :=
  let b := line ++ nul :: b.drop (line.length + 1)
  cut b (strchr b 0 '#')

def scanFile : ℕ → Scan → Str → Scan
  | 0, s, _ => s
  | k + 1, s, text =>
    match fgets (lineSize - 1) text with
    | none => s
    | some (line, text) =>
      let b := readLine s.buf line
      let s := scanLine env (strlen b 0) (b.length + 1) { s with buf := b } 0
      if s.isParseSuccess = -1 then s else scanFile k s text

def Scan.init (b : Str) (s : Subn) : Scan := ⟨b, ⟨⟨s, newPartConf⟩, [], true⟩, [], 0⟩

def osmPrtnConfigParseFile (b : Str) (s : Subn) (text : Str) : Scan :=
    scanFile env text.length (Scan.init b s) text

end OpenSM.Partition.Parse
