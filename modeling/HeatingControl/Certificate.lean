import HeatingControl.Error
import HeatingControl.Text.Blank

/-!
# Certificate bundles

A bundle is a text of marked blocks. It holds at least one certificate and exactly one private
key, which is not encrypted; blocks are closed before the next one opens.
-/
namespace HeatingControl

structure CertificateBundle where
  certificates : Nat
  deriving DecidableEq, Repr

namespace CertificateBundle

inductive Marker where
  | opening (label : List Char)
  | closing (label : List Char)
  deriving DecidableEq, Repr

def label? (start line : List Char) : Option (List Char) :=
  (Text.afterStart? start line).bind (Text.beforeEnd? "-----".toList)

def marker? (line : List Char) : Option Marker :=
  match label? "-----BEGIN ".toList line with
  | some label => some (.opening label)
  | none => (label? "-----END ".toList line).map .closing

def markers (text : String) : List Marker :=
  (Text.cutAll '\n' text.toList).filterMap fun line => marker? (Text.trimChars line)

/-- What was seen so far: the open block, and the finished certificates and keys. -/
structure Progress where
  open? : Option (List Char)
  certificates : Nat
  keys : Nat
  deriving DecidableEq, Repr

def Progress.close (p : Progress) (label : List Char) : Except ValidationError Progress :=
  if label = "CERTIFICATE".toList then .ok ⟨none, p.certificates + 1, p.keys⟩
  else if label = "PRIVATE KEY".toList then .ok ⟨none, p.certificates, p.keys + 1⟩
  else if label = "ENCRYPTED PRIVATE KEY".toList then
    .error (.invalidCertificate "private key must not be encrypted")
  else .ok ⟨none, p.certificates, p.keys⟩

def Progress.next (p : Progress) : Marker → Except ValidationError Progress
  | .opening label =>
    if p.open?.isSome then .error (.invalidCertificate "nested PEM block")
    else .ok { p with open? := some label }
  | .closing label =>
    if p.open? ≠ some label then .error (.invalidCertificate "unbalanced PEM block")
    else p.close label

def Progress.finish (p : Progress) : Except ValidationError CertificateBundle :=
  if p.open?.isSome then .error (.invalidCertificate "unterminated PEM block")
  else if p.certificates = 0 then .error (.invalidCertificate "no certificate")
  else if p.keys ≠ 1 then .error (.invalidCertificate "exactly one private key expected")
  else .ok ⟨p.certificates⟩

def walk : Progress → List Marker → Except ValidationError Progress
  | p, [] => .ok p
  | p, m :: ms =>
    match p.next m with
    | .ok p => walk p ms
    | .error e => .error e

def parse (text : String) : Except ValidationError CertificateBundle :=
  match walk ⟨none, 0, 0⟩ (markers text) with
  | .ok p => p.finish
  | .error e => .error e

end CertificateBundle
end HeatingControl
