import XmlTemplate.Serializer.Session
import XmlTemplate.Host.Host
import XmlTemplate.Proofs.Format.Positions
import XmlTemplate.Proofs.Format.Canonical
import XmlTemplate.Proofs.Render.WellFormed
import XmlTemplate.Proofs.Render.Masking
import XmlTemplate.Proofs.Render.Scoping
import XmlTemplate.Proofs.Render.Skeleton
import XmlTemplate.Proofs.Serializer.Concatenation
import XmlTemplate.Proofs.Serializer.SingleRoot
import XmlTemplate.Proofs.Serializer.Quoting
import XmlTemplate.Proofs.Value.RoundTrip
import XmlTemplate.Proofs.Value.Imports
import XmlTemplate.Proofs.Host.Json
import XmlTemplate.Proofs.Decimal.Rounding
import XmlTemplate.Proofs.Decimal.Search
import XmlTemplate.Proofs.Decimal.ReadBack
import XmlTemplate.Proofs.Format.Shown
import XmlTemplate.Proofs.Render.Lookup
import XmlTemplate.Proofs.Render.Unfolding
import XmlTemplate.Proofs.Render.Entries
import XmlTemplate.Proofs.Render.Digits
import XmlTemplate.Proofs.Host.Coherence
import XmlTemplate.Proofs.Render.Interruption
import XmlTemplate.Proofs.Host.Wrappers
import XmlTemplate.Proofs.Render.Nesting
import XmlTemplate.Proofs.Format.Respelling
import XmlTemplate.Proofs.Serializer.Prolog
import XmlTemplate.Proofs.Decimal.Range
import XmlTemplate.Proofs.Render.Naming
import XmlTemplate.Proofs.Value.NumberTexts
import XmlTemplate.Proofs.Value.Numbers
import XmlTemplate.Proofs.Value.Places
import XmlTemplate.Proofs.Format.Bounds
