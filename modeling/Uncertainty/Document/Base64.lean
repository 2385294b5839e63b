/-!
Bytes written with sixty-four characters, three bytes by four of them. Reading passes over any other
character and ends with the padding that fills a group of four.
-/
namespace Uncertainty.Base64

def alphabet : List Char :=
  "ABCDEFGHIJKLMNOPQRSTUVWXYZabcdefghijklmnopqrstuvwxyz0123456789+/".toList

def encode : List UInt8 → List Char
  | [] => []
  | [a] => characters [a.toNat / 4, a.toNat % 4 * 16] ++ ['=', '=']
  | [a, b] =>
    characters [a.toNat / 4, a.toNat % 4 * 16 + b.toNat / 16, b.toNat % 16 * 4] ++ ['=']
  | a :: b :: c :: rest =>
    characters [a.toNat / 4, a.toNat % 4 * 16 + b.toNat / 16, b.toNat % 16 * 4 + c.toNat / 64,
      c.toNat % 64] ++ encode rest
where
  characters (values : List Nat) : List Char := values.filterMap (alphabet[·]?)

def groupBytes : List Nat → List UInt8
  | [a, b, c, d] => [4 * a + b / 16, b % 16 * 16 + c / 4, c % 4 * 64 + d].map UInt8.ofNat
  | [a, b, c] => [4 * a + b / 16, b % 16 * 16 + c / 4].map UInt8.ofNat
  | [a, b] => [UInt8.ofNat (4 * a + b / 16)]
  | _ => []

/-- Reads on in a group of which some values are known, behind some signs of padding. -/
def decodeFrom (group : List Nat) (padding : Nat) : List Char → Option (List UInt8)
  | [] => if group.isEmpty then some [] else none
  | '=' :: rest =>
    if 2 ≤ group.length then
      if 4 ≤ group.length + padding + 1 then some (groupBytes group)
      else decodeFrom group (padding + 1) rest
    else decodeFrom group padding rest
  | c :: rest =>
    match alphabet.idxOf? c with
    | none => decodeFrom group padding rest
    | some value =>
      if group.length = 3 then
        (decodeFrom [] 0 rest).map (groupBytes (group ++ [value]) ++ ·)
      else decodeFrom (group ++ [value]) 0 rest

def decode? (characters : List Char) : Option (List UInt8) :=
  decodeFrom [] 0 characters

end Uncertainty.Base64
