import FeatureHeader.PyString
import FeatureHeader.Classifier
import FeatureHeader.Grammar
import FeatureHeader.FileSystem
import FeatureHeader.Generator
import FeatureHeader.Document
import FeatureHeader.Outcome
import FeatureHeader.Preprocessor
import FeatureHeader.RoundTrip
import FeatureHeader.Directives
import FeatureHeader.Inclusion
