import ZoneConsole.Settings.Choice

/-!
# Where the program runs

What differs from one machine to the next and is not for the program to say: whether
somebody sits at a terminal, and what they answer; whether output goes to a terminal;
how a table without an order of its own is written; what a shell wants to be told.
What is drawn at the terminal while a user answers is not part of any output here.
-/

namespace ZoneConsole

/-- Whoever sits at a terminal: which actions they agree to, and what they answer when they
    are asked for a profile. They are asked again for a server until its URL is valid. -/
structure User where
  agrees : String → Bool
  profile : String
  server : String
  base : String
  insecure : Bool
  server_valid : validateOrigin server = .ok ()

/-- The profile that a user describes; the usual base and the check of certificates go
    without saying. -/
def User.describes (u : User) : Profile where
  server := u.server
  apiBase := if u.base = defaultApiBase then none else some u.base
  insecure := if u.insecure then some true else none
  timeout := none
  ordering := none

/-- A machine: its user, if questions can be asked, whether output goes to a terminal, the
    script for a shell, and the order in which it writes profiles. -/
structure Machine where
  user : Option User
  display : Bool
  completion : String → String
  arrange : List (String × Profile) → List (String × Profile)
  arrange_perm : ∀ profiles, (arrange profiles).Perm profiles

/-- A machine without a terminal, which writes profiles sorted by name. -/
def Machine.usual : Machine where
  user := none
  display := false
  completion _ := ""
  arrange profiles := profiles
  arrange_perm _ := .refl _

end ZoneConsole
