import Keeper.Redaction.Pattern

/-!
# Keeper — redaction

What is secret in a message: bearer tokens, keys, passwords and tokens, as they are announced in
headers and settings.

* **`patterns`** — the patterns, in the order in which they are applied.
* **`redact`** — a text with the secrets replaced.
-/

namespace Keeper.Redaction

def isTokenPoint (p : CodePoint) : Bool :=
  p.satisfies fun c => (fold c).isAlphanum || c = '.' || c = '_' || c = '-'

def isPasswordPoint (p : CodePoint) : Bool := p != ',' && !p.satisfies Text.isBlank

def assignment : List Piece := [.blanks, .oneOf ['=', ':'], .blanks]

def header : Pattern where
  announcement := Piece.word "authorization" ++ [.oneOf [':'], .blanks] ++ Piece.word "bearer"
    ++ [.someBlanks]
  isSecret := isTokenPoint

def bearer : Pattern where
  announcement := Piece.word "bearer" ++ [.someBlanks]
  isSecret := isTokenPoint
  least := 8

def apiKey : Pattern where
  announcement := Piece.word "api" ++ [.optional ['_', '-']] ++ Piece.word "key" ++ assignment
  isSecret := isTokenPoint

def password : Pattern where
  announcement := Piece.word "password" ++ assignment
  isSecret := isPasswordPoint

def token : Pattern where
  atWordStart := true
  announcement := Piece.word "token" ++ assignment
  isSecret := isTokenPoint

def patterns : List Pattern := [header, bearer, apiKey, password, token]

/-- A text with the secrets replaced. -/
def redact (t : Text) : Text := patterns.foldl (fun text p => p.redact text) t

end Keeper.Redaction
