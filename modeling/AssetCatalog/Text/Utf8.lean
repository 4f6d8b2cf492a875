/-! # Reading octets as UTF-8

The reader is a machine that takes one octet at a time.  After a lead octet it waits for a
fixed number of further octets; only the first of them has a narrower range than `80` to `BF`,
which keeps out overlong forms, surrogates and code points past the last one.  An octet that
cannot continue what has begun closes it with one replacement character and is then read
afresh, so every longest run that is the beginning of some character gives exactly one
replacement.  A byte order mark is a character like any other. -/

set_option autoImplicit false

namespace AssetCatalog.Text.Utf8

def replacement : Char := '\ufffd'

inductive Pending where
  | none
  /-- `missing` further octets are to come; the next one lies between `low` and `high`. -/
  | begun (missing low high value : Nat)

/-- What an octet at the start of a character gives: characters, and what it leaves pending. -/
def start (octet : Nat) : List Char × Pending :=
  if octet < 0x80 then ([Char.ofNat octet], .none)
  else if octet < 0xC2 then ([replacement], .none)
  else if octet < 0xE0 then ([], .begun 1 0x80 0xBF (octet - 0xC0))
  else if octet = 0xE0 then ([], .begun 2 0xA0 0xBF 0)
  else if octet = 0xED then ([], .begun 2 0x80 0x9F 0xD)
  else if octet < 0xF0 then ([], .begun 2 0x80 0xBF (octet - 0xE0))
  else if octet = 0xF0 then ([], .begun 3 0x90 0xBF 0)
  else if octet < 0xF4 then ([], .begun 3 0x80 0xBF (octet - 0xF0))
  else if octet = 0xF4 then ([], .begun 3 0x80 0x8F 4)
  else ([replacement], .none)

def step (pending : Pending) (octet : Nat) : List Char × Pending :=
  match pending with
  | .none => start octet
  | .begun missing low high value =>
    if low ≤ octet ∧ octet ≤ high then
      let value := value * 0x40 + (octet - 0x80)
      if missing = 1 then ([Char.ofNat value], .none)
      else ([], .begun (missing - 1) 0x80 0xBF value)
    else
      let (chars, pending) := start octet
      (replacement :: chars, pending)

def decodeFrom (pending : Pending) : List UInt8 → List Char
  | [] => match pending with
    | .none => []
    | .begun .. => [replacement]
  | octet :: rest =>
    let (chars, pending) := step pending octet.toNat
    chars ++ decodeFrom pending rest

def characters (octets : List UInt8) : List Char := decodeFrom .none octets

def decode (octets : List UInt8) : String := String.ofList (characters octets)

def encode (s : String) : List UInt8 := s.toUTF8.toList

example : decode [0x61, 0xEF, 0xFF, 0x80] = "a\ufffd\ufffd\ufffd" := by decide
example : decode [0xED, 0xA0, 0x80] = "\ufffd\ufffd\ufffd" := by decide
example : decode [0xF0, 0x9F, 0x98, 0x80, 0xC3] = "😀\ufffd" := by decide

end AssetCatalog.Text.Utf8
