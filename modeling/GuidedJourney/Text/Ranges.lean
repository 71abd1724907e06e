namespace GuidedJourney.Text

def within (table : Array (Nat × Nat)) (c : Char) : Bool :=
  table.any fun r => r.1 ≤ c.toNat && c.toNat ≤ r.2

end GuidedJourney.Text
