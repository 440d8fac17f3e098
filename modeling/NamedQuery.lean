import NamedQuery.Main
import NamedQuery.Proofs.FieldPath
import NamedQuery.Proofs.Clause
import NamedQuery.Proofs.Operation
import NamedQuery.Proofs.Slots
import NamedQuery.Proofs.Check
import NamedQuery.Proofs.Spelling
import NamedQuery.Proofs.Grammar
import NamedQuery.Proofs.Filter
import NamedQuery.Proofs.Nodes
import NamedQuery.Proofs.Body
import NamedQuery.Proofs.Dependence
import NamedQuery.Proofs.Generation
import NamedQuery.Proofs.Merge
import NamedQuery.Proofs.Package
import NamedQuery.Proofs.Imports
import NamedQuery.Proofs.Update
import NamedQuery.Proofs.Indentation
import NamedQuery.Proofs.FieldSplit
import NamedQuery.Proofs.Predicates
import NamedQuery.Proofs.Failure
import NamedQuery.Proofs.JsonText
import NamedQuery.Proofs.Written
import NamedQuery.Proofs.Grouping
import NamedQuery.Proofs.Limit
import NamedQuery.Proofs.MissingNames
import NamedQuery.Proofs.WordCuts
import NamedQuery.Proofs.WordSeams
import NamedQuery.Proofs.Underlying
import NamedQuery.Proofs.Tag
import NamedQuery.Proofs.Places
import NamedQuery.Proofs.ParameterUses
import NamedQuery.Proofs.TypeText
import NamedQuery.Proofs.FileText
import NamedQuery.Proofs.DriverImports
import NamedQuery.Proofs.Quotation
import NamedQuery.Proofs.LiteralEnds
import NamedQuery.Proofs.LongestSuffix
import NamedQuery.Proofs.Gluing
