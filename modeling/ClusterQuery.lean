import ClusterQuery.Main
import ClusterQuery.FileTree
import ClusterQuery.Session
import ClusterQuery.Proofs.Failure
import ClusterQuery.Proofs.Json.Tokens
import ClusterQuery.Proofs.Json.Values
import ClusterQuery.Proofs.Toml.Document
import ClusterQuery.Proofs.Record.Decoding
import ClusterQuery.Proofs.Selector.Depth
import ClusterQuery.Proofs.Selector.Grammar
import ClusterQuery.Proofs.Selector.Shape
import ClusterQuery.Proofs.Selector.Printing
import ClusterQuery.Proofs.Selector.RoundTrip
import ClusterQuery.Proofs.Selector.Joining
import ClusterQuery.Proofs.Selector.Cutting
import ClusterQuery.Proofs.Selector.Wildcard
import ClusterQuery.Proofs.Filter.Acceptance
import ClusterQuery.Proofs.Filter.Composition
import ClusterQuery.Proofs.Filter.Dependence
import ClusterQuery.Proofs.Filter.Operators
import ClusterQuery.Proofs.Filter.Tags
import ClusterQuery.Proofs.CommandLine.Checking
import ClusterQuery.Proofs.Listing.Stages
import ClusterQuery.Proofs.Listing.Composition
import ClusterQuery.Proofs.Session.History
import ClusterQuery.Proofs.Record.Members
import ClusterQuery.Proofs.Record.Alignment
import ClusterQuery.Proofs.Selector.Spacing
import ClusterQuery.Proofs.Selector.Lossless
